import MiniGo.Build
import MiniGo.Check.Interface
import MiniGo.Check.Scoping
import MiniGo.Check.StaticType
import MiniGo.Check.Symbols
import MiniGo.Check.Terminating
import MiniGo.Command
import MiniGo.Datum
import MiniGo.Decimal.Binary64
import MiniGo.Decimal.Layout
import MiniGo.Decimal.Shortest
import MiniGo.Error
import MiniGo.Eval.Evaluate
import MiniGo.Eval.Machine
import MiniGo.Files.Fault
import MiniGo.Files.FileTree
import MiniGo.Files.Path
import MiniGo.Operator
import MiniGo.Output
import MiniGo.Package
import MiniGo.Package.Check
import MiniGo.Package.FreeNames
import MiniGo.Package.Initialization
import MiniGo.Proofs.Lexical.Carries
import MiniGo.Proofs.Lexical.Checked
import MiniGo.Proofs.Lexical.Checks
import MiniGo.Proofs.Lexical.Contexts
import MiniGo.Proofs.Lexical.Counts
import MiniGo.Proofs.Lexical.Declarations
import MiniGo.Proofs.Lexical.Frames
import MiniGo.Proofs.Lexical.Judgement
import MiniGo.Proofs.Lexical.Tables
import MiniGo.Proofs.Lexical.Visible
import MiniGo.Proofs.Package.Checked
import MiniGo.Proofs.Package.Counts
import MiniGo.Proofs.Package.Declaring
import MiniGo.Proofs.Package.Fitting
import MiniGo.Proofs.Package.Grounded
import MiniGo.Proofs.Package.Importing
import MiniGo.Proofs.Package.Imports
import MiniGo.Proofs.Package.Names
import MiniGo.Proofs.Package.Order
import MiniGo.Proofs.Package.Passing
import MiniGo.Proofs.Package.Resolving
import MiniGo.Proofs.Package.Shuffled
import MiniGo.Proofs.Package.Tables
import MiniGo.Proofs.Package.Torn
import MiniGo.Proofs.Package.Workspaces
import MiniGo.Proofs.Running.Accepted
import MiniGo.Proofs.Running.Arity
import MiniGo.Proofs.Running.Balance
import MiniGo.Proofs.Running.Calls
import MiniGo.Proofs.Running.Counting
import MiniGo.Proofs.Running.Bounds
import MiniGo.Proofs.Running.Depth
import MiniGo.Proofs.Running.Evaluate
import MiniGo.Proofs.Running.Exits
import MiniGo.Proofs.Running.Growth
import MiniGo.Proofs.Running.Keeps
import MiniGo.Proofs.Running.Loading
import MiniGo.Proofs.Running.Names
import MiniGo.Proofs.Running.Opening
import MiniGo.Proofs.Running.Programs
import MiniGo.Proofs.Running.Resolution
import MiniGo.Proofs.Running.Scoping
import MiniGo.Proofs.Running.Sessions
import MiniGo.Proofs.Running.Statements
import MiniGo.Proofs.Running.Stores
import MiniGo.Proofs.Running.Typing
import MiniGo.Proofs.Running.Values
import MiniGo.Proofs.Running.Variables
import MiniGo.Proofs.Running.World
import MiniGo.Proofs.Syntax.Formed
import MiniGo.Proofs.Syntax.Imports
import MiniGo.Proofs.Syntax.Reading
import MiniGo.Proofs.Syntax.Trees
import MiniGo.Proofs.Syntax.Words
import MiniGo.Session
import MiniGo.Settings
import MiniGo.Store
import MiniGo.Text.Capitals
import MiniGo.Text.CharClass
import MiniGo.Text.Json
import MiniGo.Text.Letters
import MiniGo.Text.Location
import MiniGo.Text.Quoted
import MiniGo.Text.Visibility
import MiniGo.Token
import MiniGo.Token.Lexer
import MiniGo.Tree
import MiniGo.Tree.Outline
import MiniGo.Tree.Parser
import MiniGo.Tree.Printer
import MiniGo.Tree.Reader
import MiniGo.Tree.TypeReader
import MiniGo.Ty
import MiniGo.Value
import MiniGo.Value.Builtins
import MiniGo.Value.Operators
import MiniGo.Workspace
import MiniGo.Main
import MiniGo.Proofs.Decimal.Literals
import MiniGo.Proofs.Syntax.Layouts
import MiniGo.Proofs.Syntax.Rereading
import MiniGo.Proofs.Package.Cycles
import MiniGo.Proofs.Running.Confined
import MiniGo.Proofs.Running.Exposed
import MiniGo.Proofs.Tokens.Cover
import MiniGo.Proofs.Syntax.Branches
import MiniGo.Proofs.Syntax.Files
import MiniGo.Proofs.Syntax.Nesting
import MiniGo.Proofs.Syntax.Printing
import MiniGo.Proofs.Places.Checking
import MiniGo.Proofs.Places.Packages
import MiniGo.Proofs.Places.Running
import MiniGo.Proofs.Places.Workspaces
import MiniGo.Proofs.Tokens.Marks
import MiniGo.Proofs.Tokens.Steps
import MiniGo.Proofs.Tokens.Quotes
import MiniGo.Proofs.Syntax.Chains
import MiniGo.Proofs.Tokens.Lookahead
import MiniGo.Proofs.Tokens.Readings
import MiniGo.Proofs.Syntax.Agreement
import MiniGo.Proofs.Syntax.Shapes
import MiniGo.Proofs.Running.Assignments
import MiniGo.Proofs.Running.Tidy
import MiniGo.Proofs.Running.Tidying
import MiniGo.Proofs.Running.TidySessions
import MiniGo.Proofs.Running.Twins
import MiniGo.Proofs.Running.Echoing
import MiniGo.Proofs.Running.Compounds
import MiniGo.Proofs.Running.Switches
import MiniGo.Proofs.Running.Mirrors
import MiniGo.Proofs.Running.Ladders
import MiniGo.Proofs.Running.Conversions
import MiniGo.Proofs.Values.Integers
import MiniGo.Proofs.Running.PlainSteps
import MiniGo.Proofs.Running.Plans
import MiniGo.Proofs.Running.SoundPlans
import MiniGo.Proofs.Running.ActiveCalls
import MiniGo.Proofs.Running.Sealed
import MiniGo.Proofs.Lexical.Arenas
import MiniGo.Proofs.Running.Handles
import MiniGo.Proofs.Package.Lookups
import MiniGo.Proofs.Syntax.Cursors
import MiniGo.Proofs.Syntax.Parameters
