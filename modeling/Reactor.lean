import Reactor.Engine.Traffic
import Reactor.Engine.Activation
import Reactor.Main
import Reactor.Proofs.Except
import Reactor.Proofs.Fields
import Reactor.Proofs.Json.Records
import Reactor.Proofs.Reaction
import Reactor.Proofs.Reaction.Building
import Reactor.Proofs.Storage
import Reactor.Proofs.Store
import Reactor.Proofs.Http.Crowd
import Reactor.Proofs.Http.History
import Reactor.Proofs.Http.Answer
import Reactor.Proofs.Http.Access
import Reactor.Proofs.Http.Mirror
import Reactor.Proofs.Engine.Trace
import Reactor.Proofs.Http.Board
import Reactor.Proofs.Http.Durability
import Reactor.Proofs.Engine.Traffic
import Reactor.Proofs.Engine.Accounting
import Reactor.Proofs.Engine.Isolation
import Reactor.Proofs.Engine.Setup
import Reactor.Proofs.Engine.Activation
import Reactor.Proofs.Engine.Repeats
import Reactor.Proofs.Lua.KeyIndex
import Reactor.Proofs.Lua.Table
import Reactor.Proofs.Lua.Heap
import Reactor.Proofs.Script.Unfolding
import Reactor.Proofs.Script.Conversion
import Reactor.Proofs.Decimal
import Reactor.Proofs.Json.Shape
import Reactor.Proofs.Lua.Names
import Reactor.Proofs.Lua.Run
import Reactor.Proofs.Script.Seeding
import Reactor.Proofs.Script.Globals
import Reactor.Proofs.Script.Passing
import Reactor.Database
import Reactor.Proofs.Engine.Lifecycle
import Reactor.Proofs.Text.Order
import Reactor.Proofs.Database
import Reactor.Proofs.Lua.Budget
import Reactor.Proofs.Script.Course
import Reactor.Proofs.Script.Size
import Reactor.Proofs.Script.Budget
import Reactor.Proofs.Http.Single
import Reactor.Proofs.Http.Faults
import Reactor.Proofs.Http.Rivals
import Reactor.Proofs.Http.Naming
import Reactor.Proofs.Toml.Quote
import Reactor.Proofs.Toml.Items
import Reactor.Proofs.Toml.File
import Reactor.Proofs.Toml.Bounds
import Reactor.Proofs.Folder
import Reactor.Proofs.Toml.Records
import Reactor.Proofs.Config.Sections
import Reactor.Proofs.Config.Saved
import Reactor.Proofs.Engine.Ending
import Reactor.Proofs.Store.Ledger
import Reactor.Proofs.Script.Contract
import Reactor.Proofs.Text.Digits
import Reactor.Proofs.Json.Lexemes
import Reactor.Proofs.Json.Numerals
import Reactor.Proofs.Json.Phrases
import Reactor.Proofs.Json.Values
import Reactor.Proofs.Json.Readers
import Reactor.Proofs.Json.Compact
import Reactor.Proofs.Json.Layouts
import Reactor.Proofs.Json.Members
import Reactor.Proofs.Json.Slots
import Reactor.Proofs.Model
import Reactor.Proofs.Engine.Resolver
import Reactor.Proofs.Startup
