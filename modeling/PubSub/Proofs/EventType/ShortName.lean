import Mathlib.Data.List.TakeWhile
import PubSub.EventType

/-!
# Proofs/EventType/ShortName — the path comes off, and nothing else

    a::b::C<d::E>
    └path┘└short┘
    └base─┘              what stands before the first `<`

A path is what may stand in front of a name: it ends with `::` before any type argument has begun,
or it is empty.  The short name is what the longest path leaves.  All else that is said of it
follows from that, as a longer path would contradict it.

Where the path ends can also be found by counting bytes: `lastByte?` looks for the last `::` in the
base, and `cutFrom?` cuts the whole name there.  It is the end of a character, as the longest path
ends there.
-/

namespace PubSub

/-! ## Texts by their bytes -/

namespace Text

/-- The byte at which a word begins for the last time in a text. -/
def lastByte? (word : List Char) : List Char → Option Nat
  | [] => if word = [] then some 0 else none
  | c :: rest =>
    match lastByte? word rest with
    | some i => some (c.utf8Size + i)
    | none => if word <+: c :: rest then some 0 else none

/-- A text from a byte on.  There is no such text if the byte lies behind the end, or inside a
character. -/
def cutFrom? (s : String) (i : Nat) : Option String :=
  if h : (⟨i⟩ : String.Pos.Raw).IsValid s then some (s.sliceFrom (s.pos ⟨i⟩ h)).copy else none

/-- Where no place is found the word does not occur. -/
theorem not_isInfix_of_lastByte?_eq_none {word : List Char} :
    ∀ {s : List Char}, lastByte? word s = none → ¬ word <:+: s
  | [], h => by
    rw [lastByte?] at h
    split at h
    · cases h
    · next hword => exact fun hin => hword (List.eq_nil_of_infix_nil hin)
  | c :: rest, h => by
    rw [lastByte?] at h
    split at h
    · cases h
    · next hrest =>
      split at h
      · cases h
      · next hhere =>
        rw [List.infix_cons_iff]
        exact fun hin => hin.elim hhere (not_isInfix_of_lastByte?_eq_none hrest)

/-- **The place that is found is that of the last occurrence**: none begins later. -/
theorem exists_of_lastByte?_eq_some {word : List Char} :
    ∀ {s : List Char} {i : Nat}, lastByte? word s = some i →
      ∃ before, before ++ word <+: s ∧ (String.ofList before).utf8ByteSize = i ∧
        ∀ p, p ++ word <+: s → p.length ≤ before.length
  | [], i, h => by
    rw [lastByte?] at h
    split at h
    · next hword =>
      subst hword
      refine ⟨[], List.nil_prefix, Option.some.inj h, fun p hp => ?_⟩
      rw [List.append_nil, List.prefix_nil] at hp
      exact (List.length_eq_zero_iff.2 hp).le
    · cases h
  | c :: rest, i, h => by
    rw [lastByte?] at h
    split at h
    · next j hrest =>
      obtain ⟨before, hprefix, hsize, hlast⟩ := exists_of_lastByte?_eq_some hrest
      refine ⟨c :: before, (List.prefix_cons_inj c).2 hprefix, ?_, fun p hp => ?_⟩
      · rw [← Option.some.inj h, ← hsize, String.ofList_cons, String.utf8ByteSize_append,
          String.utf8ByteSize_singleton]
      · cases p with
        | nil => exact Nat.zero_le _
        | cons d p =>
          rw [List.cons_append, List.cons_prefix_cons] at hp
          exact Nat.succ_le_succ (hlast p hp.2)
    · next hrest =>
      split at h
      · next hhere =>
        refine ⟨[], hhere, Option.some.inj h, fun p hp => ?_⟩
        cases p with
        | nil => exact Nat.le_refl _
        | cons d p =>
          -- an occurrence further on would have been found in the rest
          rw [List.cons_append, List.cons_prefix_cons] at hp
          refine absurd ?_ (not_isInfix_of_lastByte?_eq_none hrest)
          exact (List.suffix_append p word).isInfix.trans hp.2.isInfix
      · cases h

/-- **A text can be cut behind any of its beginnings.** -/
theorem cutFrom?_append (s t : String) : cutFrom? (s ++ t) s.utf8ByteSize = some t := by
  have hvalid : (⟨s.utf8ByteSize⟩ : String.Pos.Raw).IsValid (s ++ t) :=
    String.Pos.Raw.isValid_iff_exists_append.2 ⟨s, t, rfl, rfl⟩
  rw [cutFrom?, dif_pos hvalid]
  exact congrArg some (String.Pos.Splits.copy_sliceFrom_eq ⟨rfl, rfl⟩)

end Text

namespace EventType

/-! ## Paths -/

/-- What may stand in front of a name: it is empty, or ends with `::` before the first `<`. -/
def IsPath (p : List Char) : Prop := '<' ∉ p ∧ (p = [] ∨ [':', ':'] <:+ p)

/-- The longest path that a name begins with. -/
structure LongestPath (name path : List Char) : Prop where
  isPath : IsPath path
  begins : path <+: name
  longest : ∀ {p}, IsPath p → p <+: name → p <+: path

/-- A path behind a path is a path. -/
theorem IsPath.append {p q : List Char} (hp : IsPath p) (hq : IsPath q) : IsPath (p ++ q) := by
  refine ⟨fun h => (List.mem_append.1 h).elim hp.1 hq.1, ?_⟩
  obtain ⟨-, rfl | hq⟩ := hq
  · rw [List.append_nil]
    exact hp.2
  · exact .inr (hq.trans (List.suffix_append p q))

theorem isPath_append_separator {p : List Char} (hp : '<' ∉ p ++ [':', ':']) :
    IsPath (p ++ [':', ':']) := ⟨hp, .inr (List.suffix_append p _)⟩

/-- **Behind every `::` that no `<` precedes stands what is left of the name**, with more of the
path in front of it perhaps. -/
theorem afterPath_of_append {p : List Char} (hp : '<' ∉ p) (rest : List Char) :
    ∃ tail, afterPath (p ++ ':' :: ':' :: rest) = some tail ∧ tail <:+ rest := by
  induction p with
  | nil =>
    rw [List.nil_append, afterPath, if_neg (by decide)]
    cases hlater : afterPath (':' :: rest) with
    | none => exact ⟨rest, rfl, List.suffix_refl rest⟩
    | some tail =>
      refine ⟨tail, rfl, ?_⟩
      -- the later `::` may share its first colon with this one
      obtain ⟨path, hpath, -⟩ := afterPath_eq_some hlater
      cases path with
      | nil => exact ⟨[':'], (List.cons.inj hpath).2.symm⟩
      | cons c path =>
        refine ⟨path ++ [':', ':'], ?_⟩
        rw [List.append_assoc]
        exact (List.cons.inj hpath).2.symm
  | cons c p ih =>
    obtain ⟨hc, hp⟩ := not_or.1 (mt List.mem_cons.2 hp)
    obtain ⟨tail, htail, hsuffix⟩ := ih hp
    exact ⟨tail, by rw [List.cons_append, afterPath, if_neg (Ne.symm hc), htail], hsuffix⟩

/-- A name without its path ends whatever stands behind a `::` that no `<` precedes. -/
theorem withoutPath_append_suffix {p rest : List Char} (hp : '<' ∉ p) :
    withoutPath (p ++ ':' :: ':' :: rest) <:+ rest := by
  obtain ⟨tail, htail, hsuffix⟩ := afterPath_of_append hp rest
  rwa [withoutPath, htail]

/-- What is left off a name is a path. -/
theorem exists_isPath_append (name : List Char) :
    ∃ path, name = path ++ withoutPath name ∧ IsPath path := by
  unfold withoutPath
  cases h : afterPath name with
  | none => exact ⟨[], rfl, List.not_mem_nil, .inl rfl⟩
  | some tail =>
    obtain ⟨path, hname, hangle⟩ := afterPath_eq_some h
    refine ⟨path ++ [':', ':'], by simpa using hname, isPath_append_separator ?_⟩
    simpa using hangle

/-- **What is left off a name is the longest path.** -/
theorem exists_longestPath (name : List Char) :
    ∃ path, name = path ++ withoutPath name ∧ LongestPath name path := by
  obtain ⟨path, hname, hpath⟩ := exists_isPath_append name
  have hbegins : path <+: name := ⟨_, hname.symm⟩
  refine ⟨path, hname, hpath, hbegins, fun {p} hp hprefix => ?_⟩
  obtain ⟨hangle, rfl | ⟨q, rfl⟩⟩ := hp
  · exact List.nil_prefix
  · obtain ⟨rest, hrest⟩ := hprefix
    have hshort : withoutPath name <:+ rest := by
      rw [← hrest, List.append_assoc]
      exact withoutPath_append_suffix fun h => hangle (List.mem_append_left _ h)
    have hlength := congrArg List.length (hrest.trans hname)
    have hle := hshort.length_le
    refine List.prefix_of_prefix_length_le ⟨rest, hrest⟩ hbegins ?_
    simp only [List.length_append] at hlength ⊢
    omega

namespace LongestPath

variable {name path short : List Char}

/-- **No path begins what is left**: it would make the longest path longer. -/
theorem eq_nil_of_isPath (h : LongestPath name path) (hname : name = path ++ short) {p : List Char}
    (hp : IsPath p) (hbegins : p <+: short) : p = [] := by
  have hlonger : path ++ p <+: path :=
    h.longest (h.isPath.append hp) (hname ▸ (List.prefix_append_right_inj path).2 hbegins)
  have hle := hlonger.length_le
  rw [List.length_append] at hle
  exact List.length_eq_zero_iff.1 (by omega)

end LongestPath

/-! ## The end of the path in bytes -/

/-- The part of a name before its first `<`. -/
def base (name : List Char) : List Char := name.takeWhile (· ≠ '<')

/-- The byte at which a name goes on behind its path: that after the last `::` of its base. -/
def pathEnd (name : List Char) : Nat := ((Text.lastByte? [':', ':'] (base name)).map (· + 2)).getD 0

theorem ne_angle_of_mem {p : List Char} (hp : '<' ∉ p) : ∀ c ∈ p, decide (c ≠ '<') = true :=
  fun _ hc => decide_eq_true fun h => hp (h ▸ hc)

/-- A beginning of a name lies in its base when it has no `<`. -/
theorem prefix_base_iff {p name : List Char} : p <+: base name ↔ '<' ∉ p ∧ p <+: name := by
  unfold base
  constructor
  · intro h
    refine ⟨fun hp => ?_, h.trans (List.takeWhile_prefix _)⟩
    simpa using List.mem_takeWhile_imp (h.subset hp)
  · rintro ⟨hp, rest, rfl⟩
    rw [List.takeWhile_append_of_pos (ne_angle_of_mem hp)]
    exact List.prefix_append ..

/-- **The name goes on where its longest path ends.** -/
theorem LongestPath.pathEnd_eq {name path : List Char} (h : LongestPath name path) :
    pathEnd name = (String.ofList path).utf8ByteSize := by
  have hbase : path <+: base name := prefix_base_iff.2 ⟨h.isPath.1, h.begins⟩
  unfold pathEnd
  cases hlast : Text.lastByte? [':', ':'] (base name) with
  | none =>
    obtain rfl | hsuffix := h.isPath.2
    · rfl
    · have hin := hsuffix.isInfix.trans hbase.isInfix
      exact absurd hin (Text.not_isInfix_of_lastByte?_eq_none hlast)
  | some i =>
    obtain ⟨before, hprefix, rfl, hmax⟩ := Text.exists_of_lastByte?_eq_some hlast
    obtain ⟨hangle, hbegins⟩ := prefix_base_iff.1 hprefix
    have hle : before ++ [':', ':'] <+: path :=
      h.longest (isPath_append_separator hangle) hbegins
    have hpath : before ++ [':', ':'] = path := by
      refine hle.eq_of_length_le ?_
      obtain rfl | ⟨q, rfl⟩ := h.isPath.2
      · exact Nat.zero_le _
      · simpa using hmax q hbase
    rw [← hpath, String.ofList_append, String.utf8ByteSize_append]
    rfl

/-! ## The short name -/

/-- **The short name is the full name without its longest path, and nothing else is lost.**  This
is so for every full name, and any text at all is the full name of some type.

Cutting the full name at the byte where its path ends never fails, and what it gives is the short
name.  From the first `<` on the short name is as the full name; before that it has no `::`; and
as a full name it is its own short name. -/
theorem shortName_strips_path (t : EventType) :
    let name := t.name.toList
    let short := t.shortName.toList
    Text.cutFrom? t.name (pathEnd name) = some t.shortName ∧
      (∃ path, name = path ++ short ∧ LongestPath name path) ∧
      short.dropWhile (· ≠ '<') = name.dropWhile (· ≠ '<') ∧
      ¬ [':', ':'] <:+: base short ∧
      ∀ number, (named number t.shortName).shortName = t.shortName := by
  intro name short
  have hshort : short = withoutPath name := String.toList_ofList
  obtain ⟨path, hname, hpath⟩ := exists_longestPath name
  rw [← hshort] at hname
  refine ⟨?_, ⟨path, hname, hpath⟩, ?_, ?_, fun number => ?_⟩
  · have hsplit : t.name = String.ofList path ++ t.shortName := by
      rw [← String.toList_inj, String.toList_append, String.toList_ofList]
      exact hname
    rw [hpath.pathEnd_eq, hsplit]
    exact Text.cutFrom?_append ..
  · rw [hname, List.dropWhile_append_of_pos (ne_angle_of_mem hpath.isPath.1)]
  · rintro ⟨p, q, hpq⟩
    obtain ⟨hangle, hbegins⟩ := prefix_base_iff.1 (⟨q, hpq⟩ : p ++ [':', ':'] <+: base short)
    have hnil := hpath.eq_nil_of_isPath hname (isPath_append_separator hangle) hbegins
    simp at hnil
  · obtain ⟨path', hname', hpath'⟩ := exists_longestPath short
    have hnil : path' = [] := hpath.eq_nil_of_isPath hname hpath'.isPath hpath'.begins
    rw [hnil, List.nil_append] at hname'
    exact (congrArg String.ofList hname'.symm).trans String.ofList_toList

example : (named 0 "é:::B<c::D>").shortName = "B<c::D>" := by decide

end EventType

end PubSub
