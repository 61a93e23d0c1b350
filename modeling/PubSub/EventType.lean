/-!
# EventType — what an event is, and how its type is named

    core::option::Option<a::B>   shows as   Option<a::B>
    └──── path ───┘

An event type is one of the primitive types or a named one.  A named type carries a number and its
full name.  The number is its identity, as types of different modules may share a name; the name
goes with it: whoever numbers types gives every number one name, and types that agree in both are
the same.  A type is shown by its full name or by its short name, which is the full name without
the path in front of it; the path ends at the last `::` before the first `<`, so type arguments keep
theirs.
-/

namespace PubSub

/-- The types that carry no meaning of their own: no handler may wait for them. -/
inductive Primitive
  | unit | bool | char
  | u8 | u16 | u32 | u64 | u128 | usize
  | i8 | i16 | i32 | i64 | i128 | isize
  | f32 | f64
  | str
  deriving DecidableEq, Repr

/-- The name of a primitive type. -/
def Primitive.name : Primitive → String
  | .unit => "()" | .bool => "bool" | .char => "char"
  | .u8 => "u8" | .u16 => "u16" | .u32 => "u32" | .u64 => "u64" | .u128 => "u128"
  | .usize => "usize"
  | .i8 => "i8" | .i16 => "i16" | .i32 => "i32" | .i64 => "i64" | .i128 => "i128"
  | .isize => "isize"
  | .f32 => "f32" | .f64 => "f64"
  | .str => "&str"

/-- The type of an event.  No two types of a program share a number but not a path, so that to
compare both is to compare the numbers. -/
inductive EventType
  | primitive (p : Primitive)
  | named (number : Nat) (path : String)
  deriving DecidableEq, Repr

namespace EventType

/-- The full name. -/
def name : EventType → String
  | primitive p => p.name
  | named _ path => path

/-- Whether the type is one of the primitive ones. -/
def isPrimitive : EventType → Bool
  | primitive _ => true
  | named _ _ => false

theorem isPrimitive_iff {t : EventType} : t.isPrimitive = true ↔ ∃ p, t = primitive p := by
  cases t with
  | primitive p => exact ⟨fun _ => ⟨p, rfl⟩, fun _ => rfl⟩
  | named => exact ⟨fun h => (nomatch h), fun ⟨_, h⟩ => (nomatch h)⟩

/-! ## The short name -/

/-- What follows the last `::` that stands before every `<`, if there is such a `::`. -/
def afterPath : List Char → Option (List Char)
  | [] => none
  | c :: rest =>
    if c = '<' then none
    else match afterPath rest with
      | some tail => some tail
      | none => if c = ':' ∧ rest.head? = some ':' then some rest.tail else none

/-- A name without the path in front of it. -/
def withoutPath (name : List Char) : List Char := (afterPath name).getD name

/-- The name under which the type is shown to people. -/
def shortName (t : EventType) : String := String.ofList (withoutPath t.name.toList)

theorem afterPath_eq_some {s tail : List Char} (h : afterPath s = some tail) :
    ∃ path, s = path ++ ':' :: ':' :: tail ∧ '<' ∉ path := by
  induction s generalizing tail with
  | nil => simp [afterPath] at h
  | cons c rest ih =>
    rw [afterPath] at h
    split at h
    · simp at h
    · next hc =>
      cases hr : afterPath rest with
      | some t =>
        obtain ⟨path, hp, hn⟩ := ih hr
        rw [hr] at h
        obtain rfl : t = tail := by simpa using h
        exact ⟨c :: path, by rw [hp, List.cons_append], by
          rw [List.mem_cons]; rintro (e | e)
          · exact hc e.symm
          · exact hn e⟩
      | none =>
        rw [hr] at h
        simp only at h
        split at h
        · next hh =>
          cases rest with
          | nil => simp at hh
          | cons d rest =>
            refine ⟨[], ?_, by simp⟩
            simp only [List.head?_cons, Option.some.injEq] at hh
            simp only [List.tail_cons, Option.some.injEq] at h
            rw [hh.1, hh.2, h, List.nil_append]
        · simp at h

/-! ## Lists of types -/

/-- For each type of a list, whether neither `seen` nor the list before it has it. -/
def firsts : List EventType → List EventType → List Bool
  | _, [] => []
  | seen, t :: rest => decide (t ∉ seen) :: firsts (t :: seen) rest

/-- The full names of the types of a list, each type once, in order. -/
def names (l : List EventType) : List String :=
  (l.eraseDups.map name).mergeSort fun a b => decide (a ≤ b)

end EventType

end PubSub
