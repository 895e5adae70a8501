import MiniGo.Datum
import MiniGo.Tree

/-!
# Programs as structured data

The outline of a program is the datum that shows all of its tree: every node under its name with
its fields in a fixed order.
-/

namespace MiniGo.Outline

def field (name : String) (value : Datum) : DatumField := ⟨name, value⟩

def optional : Option Datum → Datum
  | none => .absent
  | some value => .present value

def names (found : List String) : Datum := .list (found.map .text)

def location (place : Location) : Datum :=
  .record "SourceLocation" [field "line" (.natural place.line), field "column" (.natural place.column)]

def located (place : Location) : DatumField := field "location" (location place)

def unaryName : UnaryOp → String
  | .negate => "Negate"
  | .plus => "Plus"
  | .not => "Not"
  | .bitNot => "BitNot"

def binaryName : BinaryOp → String
  | .add => "Add"
  | .subtract => "Subtract"
  | .multiply => "Multiply"
  | .divide => "Divide"
  | .remainder => "Modulo"
  | .bitAnd => "BitAnd"
  | .bitOr => "BitOr"
  | .bitXor => "BitXor"
  | .bitClear => "BitClear"
  | .shiftLeft => "ShiftLeft"
  | .shiftRight => "ShiftRight"
  | .equal => "Equal"
  | .notEqual => "NotEqual"
  | .less => "Less"
  | .lessEqual => "LessEqual"
  | .greater => "Greater"
  | .greaterEqual => "GreaterEqual"
  | .and => "And"
  | .or => "Or"

mutual

/-- A type as data. -/
def type : Ty → Datum
  | .int => .choice "Int"
  | .float => .choice "Float"
  | .string => .choice "String"
  | .bool => .choice "Bool"
  | .func found => .wrapped "Func" (funcType found)
  | .named name => .wrapped "Named" (.text name)

def funcType : FuncType → Datum
  | ⟨params, results⟩ =>
      .record "FuncType" [field "params" (.list (types params)), field "results" (.list (types results))]

def types : List Ty → List Datum
  | [] => []
  | first :: rest => type first :: types rest

end

def optionalType : Option Ty → Datum
  | none => .absent
  | some found => .present (type found)

def parameter (found : Parameter) : Datum :=
  .record "Parameter" [field "name" (.text found.name), field "param_type" (type found.type)]

def signature (found : Signature) : Datum :=
  .record "Signature" [field "params" (.list (found.params.map parameter)),
    field "results" (.list (types found.results)), field "result_names" (names found.resultNames)]

def block (statements : List Datum) : Datum :=
  .record "Block" [field "statements" (.list statements)]

def assignment (targets : List String) (operator : Datum) (values : List Datum) (place : Location) :
    Datum :=
  .variant "Assignment" [field "targets" (names targets), field "operator" operator,
    field "values" (.list values), located place]

mutual

/-- An expression as data. -/
def expr : Expr → Datum
  | .integer value => .wrapped "IntegerLiteral" (.integer value)
  | .float value => .wrapped "FloatLiteral" (.float value)
  | .string value => .wrapped "StringLiteral" (.text value)
  | .identifier name place => .variant "Identifier" [field "name" (.text name), located place]
  | .qualified package name place =>
      .variant "Qualified" [field "package" (.text package), field "name" (.text name), located place]
  | .binary left op right place =>
      .variant "BinaryOp" [field "left" (expr left), field "operator" (.choice (binaryName op)),
        field "right" (expr right), located place]
  | .unary op operand place =>
      .variant "UnaryOp" [field "operator" (.choice (unaryName op)), field "operand" (expr operand),
        located place]
  | .call callee args place =>
      .variant "Call" [field "callee" (expr callee), field "args" (.list (exprs args)), located place]
  | .function literal => .wrapped "FunctionLiteral" (function literal)

def exprs : List Expr → List Datum
  | [] => []
  | first :: rest => expr first :: exprs rest

def optionalExpr : Option Expr → Datum
  | none => .absent
  | some found => .present (expr found)

def function : FunctionLiteral → Datum
  | ⟨found, body, place⟩ =>
      .record "FunctionLiteral" [field "signature" (signature found),
        field "body" (block (stmts body)), located place]

def valueDecl : ValueDecl → Datum
  | ⟨isConst, found, type?, values, place⟩ =>
      .variant (if isConst then "ConstDecl" else "VarDecl") [field "names" (names found),
        field "type_annotation" (optionalType type?), field "values" (.list (exprs values)),
        located place]

def ifStmt : IfStmt → Datum
  | ⟨init, condition, body, orElse, place⟩ =>
      .variant "If" [field "init" (optionalStmt init), field "condition" (expr condition),
        field "then_body" (block (stmts body)), field "else_body" (elseBranch orElse), located place]

def elseBranch : ElseBranch → Datum
  | .absent => .absent
  | .block body => .present (.wrapped "Block" (block (stmts body)))
  | .chain next => .present (.wrapped "If" (ifStmt next))

def caseLabel : CaseLabel → Datum
  | .values values => .wrapped "Values" (.list (exprs values))
  | .otherwise => .choice "Default"

def switchCase : SwitchCase → Datum
  | ⟨label, body, place⟩ =>
      .record "SwitchCase" [field "label" (caseLabel label), field "body" (.list (stmts body)),
        located place]

def switchCases : List SwitchCase → List Datum
  | [] => []
  | first :: rest => switchCase first :: switchCases rest

def stmt : Stmt → Datum
  | .declare found => valueDecl found
  | .define found values place =>
      .variant "ShortVarDecl" [field "names" (names found), field "values" (.list (exprs values)),
        located place]
  | .assign targets values place => assignment targets (.choice "Assign") (exprs values) place
  | .compound target op value place =>
      assignment [target] (.wrapped "Compound" (.choice (binaryName op))) [expr value] place
  | .step target up place =>
      .variant "IncDec" [field "target" (.text target), field "increment" (.flag up), located place]
  | .ifElse found => ifStmt found
  | .loop init condition post body place =>
      .variant "For" [field "init" (optionalStmt init), field "condition" (optionalExpr condition),
        field "post" (optionalStmt post), field "body" (block (stmts body)), located place]
  | .switch init tag cases place =>
      .variant "Switch" [field "init" (optionalStmt init), field "tag" (optionalExpr tag),
        field "cases" (.list (switchCases cases)), located place]
  | .return values place => .variant "Return" [field "values" (.list (exprs values)), located place]
  | .break place => .wrapped "Break" (location place)
  | .continue place => .wrapped "Continue" (location place)
  | .block body => .wrapped "Block" (block (stmts body))
  | .expression found => .wrapped "Expression" (expr found)

def stmts : List Stmt → List Datum
  | [] => []
  | first :: rest => stmt first :: stmts rest

def optionalStmt : Option Stmt → Datum
  | none => .absent
  | some found => .present (stmt found)

end

def decl : Decl → Datum
  | .function name literal =>
      .variant "Function" [field "name" (.text name), field "function" (function literal)]
  | .values found => valueDecl found

def importSpec (found : Import) : Datum :=
  .record "Import" [field "alias" (optional (found.alias?.map .text)),
    field "path" (.text found.path), located found.location]

end MiniGo.Outline

namespace MiniGo

def Program.outline (program : Program) : Datum :=
  .record "Program" [⟨"package", .text program.package⟩,
    ⟨"imports", .list (program.imports.map Outline.importSpec)⟩,
    ⟨"declarations", .list (program.declarations.map Outline.decl)⟩]

end MiniGo
