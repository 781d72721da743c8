import SharedLinks.Counters
import SharedLinks.Hub.View
import SharedLinks.Namer
import SharedLinks.Request
import SharedLinks.Scenario.Run
import SharedLinks.Settings
import SharedLinks.Proofs.Moves
import SharedLinks.Proofs.Shelf
import SharedLinks.Proofs.Turns
import SharedLinks.Proofs.Placed
import SharedLinks.Proofs.Recorded
import SharedLinks.Proofs.Queued
import SharedLinks.Proofs.Orderly
import SharedLinks.Proofs.Frame
import SharedLinks.Proofs.Offers
import SharedLinks.Proofs.Work
import SharedLinks.Proofs.Backed
import SharedLinks.Proofs.Calls
import SharedLinks.Proofs.Books
import SharedLinks.Proofs.Teardowns
import SharedLinks.Proofs.Keepers
import SharedLinks.Proofs.Runs
import SharedLinks.Proofs.Representation
import SharedLinks.Proofs.Waiters
import SharedLinks.Proofs.Holders
import SharedLinks.Proofs.Accounts
import SharedLinks.Proofs.Outline
import SharedLinks.Proofs.Effects
import SharedLinks.Proofs.Standings
import SharedLinks.Proofs.Handings
import SharedLinks.Proofs.Deeds
import SharedLinks.Proofs.Abandoned
import SharedLinks.Proofs.Quiescence
import SharedLinks.Proofs.Creations
import SharedLinks.Proofs.Weights
import SharedLinks.Proofs.Counting
import SharedLinks.Proofs.Balances
import SharedLinks.Proofs.Alongside
import SharedLinks.Proofs.Tails
import SharedLinks.Proofs.Replies
import SharedLinks.Proofs.Apart
import SharedLinks.Proofs.Drains
import SharedLinks.Proofs.Outliving
import SharedLinks.Proofs.LettingGo
import SharedLinks.Proofs.Drained
import SharedLinks.Proofs.Abreast
import SharedLinks.Proofs.Commuting
import SharedLinks.Proofs.Timing
import SharedLinks.Proofs.Releases
import SharedLinks.Proofs.Stale
import SharedLinks.Proofs.Reordered
import SharedLinks.Proofs.Gates
import SharedLinks.Proofs.Verdicts
import SharedLinks.Proofs.Names
import SharedLinks.Proofs.Refunds
import SharedLinks.Proofs.OneShot
import SharedLinks.Proofs.Retries
import SharedLinks.Proofs.Requeues
import SharedLinks.Proofs.Destinations
import SharedLinks.Proofs.Percentages
