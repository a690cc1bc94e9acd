import SourceOutline.Query.Reader
import SourceOutline.Regex.Reader

/-!
# Compiling Queries

`Query.compile` reads a query text against a vocabulary and checks the arguments of its
conditions. Conditions that are not known are left to the reader of the query and mean
nothing here.
-/

namespace SourceOutline.Query

/-- Why the arguments of a condition are refused. -/
inductive ConditionFault where
  /-- The condition takes exactly two arguments. -/
  | notTwo (name : String) (count : Nat)
  /-- The condition takes at least one argument. -/
  | none (name : String)
  /-- The first argument has to be a capture. -/
  | literalFirst (name : String) (text : String)
  /-- The second argument has to be a literal. -/
  | captureSecond (name : String) (capture : String)
  /-- The further arguments have to be literals. -/
  | captureAmong (name : String) (capture : String)
  /-- The second argument has to be a regular expression. -/
  | invalidRegex (text : String)
  deriving DecidableEq, Repr

/-- The wording of a refusal. -/
def ConditionFault.message : ConditionFault → String
  | .notTwo name count =>
    "Wrong number of arguments to #" ++ name ++ " predicate. Expected 2, got " ++
      toString count ++ "."
  | .none name =>
    "Wrong number of arguments to #" ++ name ++ " predicate. Expected at least 1, got 0."
  | .literalFirst name text =>
    "First argument to #" ++ name ++ " predicate must be a capture name. Got literal \"" ++
      text ++ "\"."
  | .captureSecond name capture =>
    "Second argument to #" ++ name ++ " predicate must be a literal. Got capture @" ++
      capture ++ "."
  | .captureAmong name capture =>
    "Arguments to #" ++ name ++ " predicate must be literals. Got capture @" ++ capture ++ "."
  | .invalidRegex text => "Invalid regex '" ++ text ++ "'"

/-- The condition that two texts be equal. -/
def equalsCondition (positive every : Bool) : List Argument → Except ConditionFault Condition
  | [.capture left, .capture right] => .ok (.equalsCapture left right positive every)
  | [.capture left, .literal text] => .ok (.equalsText left text positive every)
  | [.literal text, _] => .error (.literalFirst "eq?" text)
  | arguments => .error (.notTwo "eq?" arguments.length)

/-- The condition that a text have a match of a regular expression. -/
def matchCondition (positive every : Bool) : List Argument → Except ConditionFault Condition
  | [.capture left, .literal text] =>
    match Regex.read? text with
    | some regex => .ok (.hasMatch left regex positive every)
    | Option.none => .error (.invalidRegex text)
  | [.capture _, .capture right] => .error (.captureSecond "match?" right)
  | [.literal text, _] => .error (.literalFirst "match?" text)
  | arguments => .error (.notTwo "match?" arguments.length)

/-- The condition that a text be one of a list. -/
def oneOfCondition (positive : Bool) : List Argument → Except ConditionFault Condition
  | [] => .error (.none "any-of?")
  | .literal text :: _ => .error (.literalFirst "any-of?" text)
  | .capture left :: more => do
    let texts ← more.mapM fun
      | .literal text => .ok text
      | .capture name => .error (.captureAmong "any-of?" name)
    .ok (.isOneOf left texts positive)

/-- The condition that a written one stands for, unless its name is not known. -/
def RawCondition.resolve (raw : RawCondition) : Except ConditionFault (Option Condition) :=
  match raw.name with
  | "eq?" => (equalsCondition true true raw.arguments).map some
  | "not-eq?" => (equalsCondition false true raw.arguments).map some
  | "any-eq?" => (equalsCondition true false raw.arguments).map some
  | "any-not-eq?" => (equalsCondition false false raw.arguments).map some
  | "match?" => (matchCondition true true raw.arguments).map some
  | "not-match?" => (matchCondition false true raw.arguments).map some
  | "any-match?" => (matchCondition true false raw.arguments).map some
  | "any-not-match?" => (matchCondition false false raw.arguments).map some
  | "any-of?" => (oneOfCondition true raw.arguments).map some
  | "not-any-of?" => (oneOfCondition false raw.arguments).map some
  | _ => .ok Option.none

/-- The rule that a written one stands for. Refused conditions are reported at the row of
the rule. -/
def RawRule.resolve (raw : RawRule) : Except Issue Rule :=
  match raw.conditions.mapM RawCondition.resolve with
  | .ok conditions => .ok { pattern := raw.pattern, conditions := conditions.filterMap id }
  | .error fault => .error { row := raw.row, column := 0, detail := fault.message }

/-- The query that a text writes. -/
def compile (vocabulary : Vocabulary) (text : String) : Except Issue Query :=
  match readText vocabulary text.toList with
  | .error fault => .error (fault.report text.toList)
  | .ok (raw, captureNames) => do
    let rules ← raw.mapM RawRule.resolve
    .ok { rules, captureNames }

end SourceOutline.Query
