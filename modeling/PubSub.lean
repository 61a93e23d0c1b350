import PubSub.Conversation
import PubSub.Run
import PubSub.Scenario.Play
import PubSub.Showcase.Chat
import PubSub.Showcase.Login
import PubSub.Showcase.Loot
import PubSub.Proofs.EventType.ShortName
import PubSub.Proofs.Directory.Index
import PubSub.Proofs.Directory.Deeds
import PubSub.Proofs.Directory.Census
import PubSub.Proofs.Directory.Registration
import PubSub.Proofs.Directory.Families
import PubSub.Proofs.Directory.Isolation
import PubSub.Proofs.Directory.Consistency
import PubSub.Proofs.Post.Step
import PubSub.Proofs.Post.Stack
import PubSub.Proofs.Post.Dispatch
import PubSub.Proofs.Post.Waits
import PubSub.Proofs.Post.Detours
import PubSub.Proofs.OneShots.Calls
import PubSub.Proofs.OneShots.Conservation
import PubSub.Proofs.OneShots.Order
import PubSub.Proofs.OneShots.Queues
import PubSub.Proofs.OneShots.Visits
import PubSub.Proofs.OneShots.Leavings
import PubSub.Proofs.OneShots.Batch
import PubSub.Proofs.OneShots.Mailboxes
import PubSub.Proofs.OneShots.Receivers
import PubSub.Proofs.Runs.Log
import PubSub.Proofs.Runs.Alike
import PubSub.Proofs.Runs.Lockstep
import PubSub.Proofs.Runs.Caches
import PubSub.Proofs.Runs.Settings
import PubSub.Proofs.Runs.Ledger
import PubSub.Proofs.Runs.Diagnostics
import PubSub.Proofs.Runs.Rebuilds
import PubSub.Proofs.Runs.Failures
import PubSub.Proofs.Runs.Panics
import PubSub.Proofs.Runs.Declarations
import PubSub.Proofs.Runs.Warnings
import PubSub.Proofs.Runs.HandingUp
import PubSub.Proofs.Runs.Reports
