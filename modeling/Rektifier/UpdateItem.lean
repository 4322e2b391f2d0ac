import Rektifier.EvalCondition
import Rektifier.UpdateSql

namespace Rektifier

structure SimpleUpdatePrimitives where
  insertItem : Json
  sets : List (String × Json)
  removes : List String

structure SimpleSqlUpdatePrimitives where
  sets : List (String × Json)
  removes : List String

/-- `isSimple` guarantees that there is one. -/
def SetClause.literal (c : SetClause) : Option (String × AttributeValue) :=
  match c.path.topName, c.value with
  | some n, .operand (.value v) => some (n, v)
  | _, _ => none

def UpdateExpression.literals (e : UpdateExpression) : List (String × AttributeValue) :=
  e.set.filterMap SetClause.literal

def UpdateExpression.removeNames (e : UpdateExpression) : List String :=
  e.remove.filterMap Path.topName

def buildSetsRemoves (plan : UpdateItemPlan) : List (String × Json) × List String :=
  (Entries.mapVals AttributeValue.toValue plan.expression.literals, plan.expression.removeNames)

/-- The SET literals written over the key; REMOVE does not contribute. -/
def buildInsertItem (plan : UpdateItemPlan) (key : Item) : Json :=
  .obj (Entries.insertAll (Entries.mapVals AttributeValue.toValue key.entries)
    (Entries.mapVals AttributeValue.toValue plan.expression.literals))

def materializeSimpleUpdate (plan : UpdateItemPlan) (key : Item) :
    Except TranslateError SimpleUpdatePrimitives :=
  if !plan.expression.isSimple then
    .error (.unsupportedSetRhs "non-simple expression reached materializer")
  else if plan.condition.isSome then .error .unsupportedConditionInFastPath
  else
    let (sets, removes) := buildSetsRemoves plan
    .ok ⟨buildInsertItem plan key, sets, removes⟩

def materializeInsertOnlyUpdate (plan : UpdateItemPlan) (key : Item) :
    Except TranslateError Json :=
  if !plan.expression.isSimple then
    .error (.unsupportedSetRhs "non-simple expression reached insert-only materializer")
  else match plan.condition with
    | none => .error (.unsupportedSetRhs "insert-only materializer called without a condition")
    | some cp =>
      if cp.routing ≠ .insertOnlyOnPk then
        .error (.unsupportedSetRhs
          "insert-only materializer called with non-InsertOnlyOnPk routing")
      else .ok (buildInsertItem plan key)

def materializeSimpleSqlUpdate (plan : UpdateItemPlan) :
    Except TranslateError SimpleSqlUpdatePrimitives :=
  if !plan.expression.isSimple then
    .error (.unsupportedSetRhs "non-simple expression reached SimpleSql materializer")
  else match plan.condition with
    | none => .error (.unsupportedSetRhs "SimpleSql materializer called without a condition")
    | some cp =>
      if cp.routing ≠ .simpleSql then
        .error (.unsupportedSetRhs "SimpleSql materializer called with non-SimpleSql routing")
      else
        let (sets, removes) := buildSetsRemoves plan
        .ok ⟨sets, removes⟩

inductive ApiError where
  | translate (e : TranslateError)
  | backend (e : BackendError)
deriving DecidableEq

def translated {α : Type} (r : Except TranslateError α) : Except ApiError α :=
  r.mapError .translate

def stored {α : Type} (r : Except BackendError α) : Except ApiError α := r.mapError .backend

/-- The shape write paths hand to storage. -/
def TableSchema.writeShape (schema : TableSchema) : TableShape :=
  schema.shapeWithDualWrite schema.dualWriteCols

abbrev TableSchema.Table (schema : TableSchema) := PgTable schema.writeShape.baseKey

/-- What the slow path decides on the row it has locked. -/
def slowApply (plan : UpdateItemPlan) (key : Item) (existing : Option Json) :
    Except BackendError UpdateDecision :=
  if plan.condition.any fun c => !evaluateCondition existing c.condition then .ok .fail
  else match applyUpdateExpression existing plan.expression key with
    | .ok newItem => .ok (.apply newItem)
    | .error e => .error (.evalFailed e)

def dispatchSlowPath (schema : TableSchema) (t : schema.Table) (plan : UpdateItemPlan)
    (key : Item) : Except ApiError (schema.Table × UpdateOutcome) :=
  stored (updateGeneralRmwRaw schema.writeShape t plan.pk plan.sk (slowApply plan key))

def needsSlowPath (plan : UpdateItemPlan) : Bool :=
  !plan.expression.isSimple || plan.condition.any fun c => c.routing = .needsTx

/-- The three statement shapes of the fast path. -/
def dispatchFastPath (schema : TableSchema) (t : schema.Table) (plan : UpdateItemPlan)
    (key : Item) : Except ApiError (schema.Table × UpdateOutcome) :=
  match plan.condition with
  | none => do
    let prims ← translated (materializeSimpleUpdate plan key)
    stored (updateSimpleRaw schema.writeShape t plan.pk plan.sk prims.insertItem prims.sets
      prims.removes)
  | some cp => match cp.routing with
    | .insertOnlyOnPk => do
      let insertItem ← translated (materializeInsertOnlyUpdate plan key)
      stored (updateInsertOnlyRaw schema.writeShape t insertItem)
    | .simpleSql => do
      let prims ← translated (materializeSimpleSqlUpdate plan)
      stored (updateWithSimpleConditionRaw schema.writeShape t plan.pk plan.sk prims.sets
        prims.removes cp.condition)
    | .needsTx => dispatchSlowPath schema t plan key

def handleUpdateItem (schema : TableSchema) (t : schema.Table) (req : UpdateItemRequest) :
    Except ApiError (schema.Table × UpdateOutcome) := do
  let plan ← translated (translateUpdateItem req schema)
  if needsSlowPath plan then dispatchSlowPath schema t plan req.key
  else dispatchFastPath schema t plan req.key

end Rektifier
