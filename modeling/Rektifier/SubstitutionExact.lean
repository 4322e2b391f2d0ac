import Rektifier.Fallible
import Rektifier.ReservedWords
import Rektifier.Substitution

namespace Rektifier

open Fallible List

inductive RawLeaf where
  | segment (s : RawPathSegment)
  | value (v : String)

def RawPath.leaves (p : RawPath) : List RawLeaf := p.segments.map .segment

def RawOperand.leaves : RawOperand → List RawLeaf
  | .path p => p.leaves
  | .valueRef v => [.value v]

def RawSetRhs.leaves : RawSetRhs → List RawLeaf
  | .operand o => o.leaves
  | .plus a b | .minus a b => a.leaves ++ b.leaves
  | .ifNotExists p fallback => p.leaves ++ fallback.leaves
  | .listAppend a b => a.leaves ++ b.leaves

def RawCondition.leaves : RawCondition → List RawLeaf
  | .compare _ left right => left.leaves ++ right.leaves
  | .attributeExists p | .attributeNotExists p => p.leaves
  | .beginsWith p o | .contains p o | .attributeType p o => p.leaves ++ o.leaves
  | .between v lo hi => v.leaves ++ lo.leaves ++ hi.leaves
  | .isIn v items => v.leaves ++ items.flatMap RawOperand.leaves
  | .and a b | .or a b => a.leaves ++ b.leaves
  | .not inner => inner.leaves

def RawUpdateExpression.leaves (e : RawUpdateExpression) : List RawLeaf :=
  e.set.flatMap (fun c => c.path.leaves ++ c.value.leaves) ++ e.remove.flatMap RawPath.leaves
    ++ e.add.flatMap (fun a => a.path.leaves ++ a.value.leaves)
    ++ e.delete.flatMap (fun a => a.path.leaves ++ a.value.leaves)

def RawUpdateExpression.operands (e : RawUpdateExpression) : List RawOperand :=
  e.add.map RawAddAction.value ++ e.delete.map RawDeleteAction.value

section Maps

variable (names : OrderedMap String String) (values : OrderedMap String AttributeValue)

def aliased (n : String) : Option String := (names.get ("#" ++ n)).or (names.get n)

def placed (v : String) : Option AttributeValue := (values.get (":" ++ v)).or (values.get v)

/-- A name not reserved, an alias or a placeholder with an entry. -/
def RawLeaf.Resolves : RawLeaf → Prop
  | .segment (.name n) => isReserved n = false
  | .segment (.nameRef n) => (aliased names n).isSome
  | .segment (.index _) => True
  | .value v => (placed values v).isSome

def RawPathSegment.filled : RawPathSegment → PathSegment
  | .name n => .name n
  | .nameRef n => .name ((aliased names n).getD n)
  | .index i => .index i.toNat

def RawPath.filled (p : RawPath) : Path := ⟨p.segments.map (RawPathSegment.filled names)⟩

def filledValue (v : String) : AttributeValue := (placed values v).getD .null

def RawOperand.filled : RawOperand → Operand
  | .path p => .path (p.filled names)
  | .valueRef v => .value (filledValue values v)

def RawSetRhs.filled : RawSetRhs → SetRhs
  | .operand o => .operand (o.filled names values)
  | .plus a b => .plus (a.filled names values) (b.filled names values)
  | .minus a b => .minus (a.filled names values) (b.filled names values)
  | .ifNotExists p fallback => .ifNotExists (p.filled names) fallback.filled
  | .listAppend a b => .listAppend a.filled b.filled

def RawCondition.filled : RawCondition → Condition
  | .compare op left right => .compare op (left.filled names values) (right.filled names values)
  | .attributeExists p => .attributeExists (p.filled names)
  | .attributeNotExists p => .attributeNotExists (p.filled names)
  | .beginsWith p o => .beginsWith (p.filled names) (o.filled names values)
  | .contains p o => .contains (p.filled names) (o.filled names values)
  | .between v lo hi =>
    .between (v.filled names values) (lo.filled names values) (hi.filled names values)
  | .isIn v items => .isIn (v.filled names values) (items.map (RawOperand.filled names values))
  | .attributeType p o => .attributeType (p.filled names) (o.filled names values)
  | .and a b => .and a.filled b.filled
  | .or a b => .or a.filled b.filled
  | .not inner => .not inner.filled

/-- What takes the place of an operand of ADD or DELETE. -/
def RawOperand.filledValue : RawOperand → AttributeValue
  | .path _ => .null
  | .valueRef v => Rektifier.filledValue values v

def RawUpdateExpression.filled (e : RawUpdateExpression) : UpdateExpression where
  set := e.set.map fun c => ⟨c.path.filled names, c.value.filled names values⟩
  remove := e.remove.map (RawPath.filled names)
  add := e.add.map fun a => ⟨a.path.filled names, a.value.filledValue values⟩
  delete := e.delete.map fun a => ⟨a.path.filled names, a.value.filledValue values⟩

end Maps

/-- A renaming of keys of the maps: the mark before one stays. -/
structure Renaming (mark : String) where
  rename : String → String
  injective : Function.Injective rename
  keepsMark : ∀ n, rename (mark ++ n) = mark ++ rename n

def Renaming.keys {mark : String} {α : Type} (ρ : Renaming mark) (m : OrderedMap String α) :
    OrderedMap String α :=
  .ofList (m.entries.map fun e => (ρ.rename e.1, e.2))

/-- An ending for every name. -/
example : ∃ ρ : Renaming "#", ρ.rename "a" = "ab" :=
  ⟨⟨(· ++ "b"), fun _ _ => (String.append_left_inj _).mp, fun _ => String.append_assoc⟩, rfl⟩

section Rename

variable (ρ : Renaming "#") (τ : Renaming ":")

def RawPathSegment.rename : RawPathSegment → RawPathSegment
  | .nameRef n => .nameRef (ρ.rename n)
  | .name n => .name n
  | .index i => .index i

def RawPath.rename (p : RawPath) : RawPath := ⟨p.segments.map (RawPathSegment.rename ρ)⟩

def RawOperand.rename : RawOperand → RawOperand
  | .path p => .path (p.rename ρ)
  | .valueRef v => .valueRef (τ.rename v)

def RawSetRhs.rename : RawSetRhs → RawSetRhs
  | .operand o => .operand (o.rename ρ τ)
  | .plus a b => .plus (a.rename ρ τ) (b.rename ρ τ)
  | .minus a b => .minus (a.rename ρ τ) (b.rename ρ τ)
  | .ifNotExists p fallback => .ifNotExists (p.rename ρ) fallback.rename
  | .listAppend a b => .listAppend a.rename b.rename

def RawCondition.rename : RawCondition → RawCondition
  | .compare op left right => .compare op (left.rename ρ τ) (right.rename ρ τ)
  | .attributeExists p => .attributeExists (p.rename ρ)
  | .attributeNotExists p => .attributeNotExists (p.rename ρ)
  | .beginsWith p o => .beginsWith (p.rename ρ) (o.rename ρ τ)
  | .contains p o => .contains (p.rename ρ) (o.rename ρ τ)
  | .between v lo hi => .between (v.rename ρ τ) (lo.rename ρ τ) (hi.rename ρ τ)
  | .isIn v items => .isIn (v.rename ρ τ) (items.map (RawOperand.rename ρ τ))
  | .attributeType p o => .attributeType (p.rename ρ) (o.rename ρ τ)
  | .and a b => .and a.rename b.rename
  | .or a b => .or a.rename b.rename
  | .not inner => .not inner.rename

def RawUpdateExpression.rename (e : RawUpdateExpression) : RawUpdateExpression where
  set := e.set.map fun c => ⟨c.path.rename ρ, c.value.rename ρ τ⟩
  remove := e.remove.map (RawPath.rename ρ)
  add := e.add.map fun a => ⟨a.path.rename ρ, a.value.rename ρ τ⟩
  delete := e.delete.map fun a => ⟨a.path.rename ρ, a.value.rename ρ τ⟩

end Rename

section Exact

variable {ρ : Renaming "#"} {τ : Renaming ":"} {names : OrderedMap String String}
  {values : OrderedMap String AttributeValue}

theorem Renaming.get_keys {mark : String} {α : Type} (ρ : Renaming mark) (m : OrderedMap String α)
    (k : String) : (ρ.keys m).get (ρ.rename k) = m.get k := by
  have hnodup : ((m.entries.map fun e => (ρ.rename e.1, e.2)).map Prod.fst).Nodup := by
    rw [map_map]
    have hkeys := m.keys_nodup.map ρ.injective
    rwa [OrderedMap.keys, map_map] at hkeys
  refine Option.ext fun v => ?_
  rw [Renaming.keys, OrderedMap.get_ofList_iff hnodup]
  constructor
  · intro hmem
    obtain ⟨⟨k', v'⟩, hentry, heq⟩ := mem_map.mp hmem
    obtain ⟨hk, rfl⟩ := Prod.mk.inj heq
    cases ρ.injective hk
    exact OrderedMap.get_of_mem hentry
  · intro hget
    exact mem_map.mpr ⟨(k, v), Entries.get_eq_some_mem hget, rfl⟩

theorem aliased_rename (n : String) : aliased (ρ.keys names) (ρ.rename n) = aliased names n := by
  rw [aliased, ← ρ.keepsMark, ρ.get_keys, ρ.get_keys, aliased]

theorem placed_rename (v : String) : placed (τ.keys values) (τ.rename v) = placed values v := by
  rw [placed, ← τ.keepsMark, τ.get_keys, τ.get_keys, placed]

def AllResolve (names : OrderedMap String String) (values : OrderedMap String AttributeValue)
    (leaves : List RawLeaf) : Prop := ∀ leaf ∈ leaves, leaf.Resolves names values

theorem allResolve_append {a b : List RawLeaf} : AllResolve names values (a ++ b) ↔
    AllResolve names values a ∧ AllResolve names values b := forall_mem_append

theorem allResolve_flatMap {α : Type} {f : α → List RawLeaf} {l : List α} :
    AllResolve names values (l.flatMap f) ↔ ∀ a ∈ l, AllResolve names values (f a) := by
  simp only [AllResolve, mem_flatMap]
  exact ⟨fun h a ha leaf hleaf => h leaf ⟨a, ha, hleaf⟩,
    fun h leaf ⟨a, ha, hleaf⟩ => h a ha leaf hleaf⟩

theorem resolveNameRef_yields {n n' : String} {names' : OrderedMap String String}
    (h : aliased names' n' = aliased names n) :
    YieldsWhen (resolveSegment isReserved names'.get (.nameRef n'))
      ((RawLeaf.segment (.nameRef n)).Resolves names values)
      ((RawPathSegment.nameRef n).filled names) := by
  intro b
  rw [RawLeaf.Resolves, RawPathSegment.filled, ← h]
  cases hactual : aliased names' n' with
  | none =>
    rw [aliased] at hactual
    simp [resolveSegment, hactual]
  | some actual =>
    rw [aliased] at hactual
    simp [resolveSegment, hactual, eq_comm]

theorem resolveSegment_yields (s : RawPathSegment) :
    BothYield (resolveSegment isReserved names.get s)
      (resolveSegment isReserved (ρ.keys names).get (s.rename ρ))
      ((RawLeaf.segment s).Resolves names values) (s.filled names) := by
  cases s with
  | name n =>
    have hname : ∀ names' : OrderedMap String String,
        YieldsWhen (resolveSegment isReserved names'.get (.name n)) (isReserved n = false)
          (.name n) := by
      intro names' b
      cases hreserved : isReserved n <;> simp [resolveSegment, hreserved, eq_comm]
    exact ⟨hname _, hname _⟩
  | nameRef n => exact ⟨resolveNameRef_yields rfl, resolveNameRef_yields (aliased_rename n)⟩
  | index i => exact ⟨yieldsWhen_ok _, yieldsWhen_ok _⟩

theorem resolvePath_yields (p : RawPath) :
    BothYield (resolvePath isReserved names.get p)
      (resolvePath isReserved (ρ.keys names).get (p.rename ρ)) (AllResolve names values p.leaves)
      (p.filled names) := by
  have hsegments : BothYield (p.segments.mapM (resolveSegment isReserved names.get))
      ((p.segments.map (RawPathSegment.rename ρ)).mapM
        (resolveSegment isReserved (ρ.keys names).get))
      (∀ s ∈ p.segments, (RawLeaf.segment s).Resolves names values)
      (p.segments.map (RawPathSegment.filled names)) := .mapM fun s _ => resolveSegment_yields s
  exact (hsegments.map Path.mk).congr forall_mem_map

theorem resolveValue_yields (names : OrderedMap String String) (v : String) :
    BothYield (resolveValue values.get v) (resolveValue (τ.keys values).get (τ.rename v))
      ((RawLeaf.value v).Resolves names values) (filledValue values v) := by
  have hlookup : ∀ (values' : OrderedMap String AttributeValue) v',
      placed values' v' = placed values v → YieldsWhen (resolveValue values'.get v')
        ((RawLeaf.value v).Resolves names values) (filledValue values v) := by
    intro values' v' h b
    rw [RawLeaf.Resolves, filledValue, ← h]
    cases hplaced : placed values' v' with
    | none =>
      rw [placed] at hplaced
      simp [resolveValue, hplaced]
    | some av =>
      rw [placed] at hplaced
      simp [resolveValue, hplaced, eq_comm]
  exact ⟨hlookup _ _ rfl, hlookup _ _ (placed_rename v)⟩

theorem resolveOperand_yields (o : RawOperand) :
    BothYield (resolveOperand isReserved names.get values.get o)
      (resolveOperand isReserved (ρ.keys names).get (τ.keys values).get (o.rename ρ τ))
      (AllResolve names values o.leaves) (o.filled names values) := by
  cases o with
  | path p => exact (resolvePath_yields p).map Operand.path
  | valueRef v =>
    exact ((resolveValue_yields names v).map Operand.value).congr forall_mem_singleton

theorem resolveOperandToValue_yields (ρ : Renaming "#") (names : OrderedMap String String)
    (o : RawOperand) :
    BothYield (resolveOperandToValue values.get o)
      (resolveOperandToValue (τ.keys values).get (o.rename ρ τ))
      (AllResolve names values o.leaves ∧ ∃ v, o = .valueRef v) (o.filledValue values) := by
  cases o with
  | path p => constructor <;> intro b <;> simp [resolveOperandToValue, RawOperand.rename]
  | valueRef v =>
    refine (resolveValue_yields names v).congr ?_
    simp [RawOperand.leaves, AllResolve]

theorem yields_both {ε α β γ : Type} {x x' : Except ε α} {y y' : Except ε β} {a b : List RawLeaf}
    {u : α} {v : β} (hx : BothYield x x' (AllResolve names values a) u)
    (hy : BothYield y y' (AllResolve names values b) v) (f : α → β → γ) :
    BothYield (x >>= fun u => y >>= fun v => .ok (f u v))
      (x' >>= fun u => y' >>= fun v => .ok (f u v)) (AllResolve names values (a ++ b)) (f u v) :=
  (hx.bind (hy.map (f u))).congr allResolve_append

theorem resolveSetRhs_yields (rhs : RawSetRhs) :
    BothYield (resolveSetRhs isReserved names.get values.get rhs)
      (resolveSetRhs isReserved (ρ.keys names).get (τ.keys values).get (rhs.rename ρ τ))
      (AllResolve names values rhs.leaves) (rhs.filled names values) := by
  induction rhs with
  | operand o => exact (resolveOperand_yields o).map SetRhs.operand
  | plus a b => exact yields_both (resolveOperand_yields a) (resolveOperand_yields b) SetRhs.plus
  | minus a b => exact yields_both (resolveOperand_yields a) (resolveOperand_yields b) SetRhs.minus
  | ifNotExists p fallback ih => exact yields_both (resolvePath_yields p) ih SetRhs.ifNotExists
  | listAppend a b iha ihb => exact yields_both iha ihb SetRhs.listAppend

theorem substituteCondition_yields (raw : RawCondition) :
    BothYield (substituteCondition isReserved names.get values.get raw)
      (substituteCondition isReserved (ρ.keys names).get (τ.keys values).get (raw.rename ρ τ))
      (AllResolve names values raw.leaves) (raw.filled names values) := by
  induction raw with
  | compare op left right =>
    exact yields_both (resolveOperand_yields left) (resolveOperand_yields right)
      (Condition.compare op)
  | attributeExists p => exact (resolvePath_yields p).map Condition.attributeExists
  | attributeNotExists p => exact (resolvePath_yields p).map Condition.attributeNotExists
  | beginsWith p o =>
    exact yields_both (resolvePath_yields p) (resolveOperand_yields o) Condition.beginsWith
  | contains p o =>
    exact yields_both (resolvePath_yields p) (resolveOperand_yields o) Condition.contains
  | between v lo hi =>
    refine ((resolveOperand_yields v).bind (yields_both (resolveOperand_yields lo)
      (resolveOperand_yields hi) (Condition.between _))).congr ?_
    rw [RawCondition.leaves, append_assoc, allResolve_append]
  | isIn v items =>
    have hitems : BothYield (items.mapM (resolveOperand isReserved names.get values.get))
        ((items.map (RawOperand.rename ρ τ)).mapM
          (resolveOperand isReserved (ρ.keys names).get (τ.keys values).get))
        (AllResolve names values (items.flatMap RawOperand.leaves))
        (items.map (RawOperand.filled names values)) :=
      (BothYield.mapM fun o _ => resolveOperand_yields o).congr allResolve_flatMap
    exact yields_both (resolveOperand_yields v) hitems Condition.isIn
  | attributeType p o =>
    exact yields_both (resolvePath_yields p) (resolveOperand_yields o) Condition.attributeType
  | and a b iha ihb => exact yields_both iha ihb Condition.and
  | or a b iha ihb => exact yields_both iha ihb Condition.or
  | not inner ih => exact ih.map Condition.not

theorem resolveAction_yields {α : Type} (mk : Path → AttributeValue → α) (p : RawPath)
    (o : RawOperand) :
    BothYield (resolveAction isReserved names.get values.get mk p o)
      (resolveAction isReserved (ρ.keys names).get (τ.keys values).get mk (p.rename ρ)
        (o.rename ρ τ))
      (AllResolve names values (p.leaves ++ o.leaves) ∧ ∃ v, o = .valueRef v)
      (mk (p.filled names) (o.filledValue values)) := by
  have hpath : BothYield _ (resolvePath isReserved (ρ.keys names).get (p.rename ρ))
    (AllResolve names values p.leaves) _ := resolvePath_yields p
  refine (hpath.bind ((resolveOperandToValue_yields ρ names o).map (mk _))).congr ?_
  rw [allResolve_append, and_assoc]

theorem substituteUpdate_yields (raw : RawUpdateExpression) :
    BothYield (substituteUpdate isReserved names.get values.get raw)
      (substituteUpdate isReserved (ρ.keys names).get (τ.keys values).get (raw.rename ρ τ))
      (AllResolve names values raw.leaves ∧ ∀ o ∈ raw.operands, ∃ v, o = .valueRef v)
      (raw.filled names values) := by
  have hset : ∀ c ∈ raw.set, BothYield (resolveSetClause isReserved names.get values.get c)
      (resolveSetClause isReserved (ρ.keys names).get (τ.keys values).get
        ⟨c.path.rename ρ, c.value.rename ρ τ⟩)
      (AllResolve names values (c.path.leaves ++ c.value.leaves)) _ := fun c _ =>
    yields_both (resolvePath_yields c.path) (resolveSetRhs_yields c.value) SetClause.mk
  have hremove : ∀ p ∈ raw.remove, BothYield (resolvePath isReserved names.get p)
      (resolvePath isReserved (ρ.keys names).get (p.rename ρ)) (AllResolve names values p.leaves)
      _ := fun p _ => resolvePath_yields p
  refine ((BothYield.mapM hset).bind ((BothYield.mapM hremove).bind
    ((BothYield.mapM fun a _ => resolveAction_yields AddAction.mk a.path a.value).bind
      ((BothYield.mapM fun a _ => resolveAction_yields DeleteAction.mk a.path a.value).map
        (UpdateExpression.mk _ _ _))))).congr ?_
  simp only [RawUpdateExpression.leaves, RawUpdateExpression.operands, allResolve_append,
    allResolve_flatMap, forall_mem_append, forall_mem_map, forall_and]
  tauto

end Exact

/-- It succeeds under the condition, its result is the expression with its leaves filled in, and is
the same under other names. -/
structure SubstitutesExactly {α : Type} (result renamed : Except SubstituteError α)
    (condition : Prop) (filled : α) : Prop where
  succeeds : (∃ a, result = .ok a) ↔ condition
  shape : ∀ a, result = .ok a → a = filled
  invariant : renamed.toOption = result.toOption

theorem substitutesExactly_of_yields {α : Type} {result renamed : Except SubstituteError α}
    {condition : Prop} {filled : α} (h : BothYield result renamed condition filled) :
    SubstitutesExactly result renamed condition filled where
  succeeds := ⟨fun ⟨a, ha⟩ => ((h.left a).mp ha).1,
    fun hc => ⟨filled, (h.left filled).mpr ⟨hc, rfl⟩⟩⟩
  shape := fun a ha => ((h.left a).mp ha).2
  invariant := h.toOption_eq

/-- A substitution succeeds exactly when every alias and placeholder has an entry, no bare name is
reserved and the operands of ADD and DELETE are placeholders. The result is the expression with each
leaf looked up. Renaming aliases and placeholders in the expression and in the maps does not change
it. -/
theorem substitute_exact (names : OrderedMap String String)
    (values : OrderedMap String AttributeValue) (ρ : Renaming "#") (τ : Renaming ":") :
    (∀ raw : RawCondition, SubstitutesExactly
      (substituteCondition isReserved names.get values.get raw)
      (substituteCondition isReserved (ρ.keys names).get (τ.keys values).get (raw.rename ρ τ))
      (∀ leaf ∈ raw.leaves, leaf.Resolves names values) (raw.filled names values)) ∧
    ∀ raw : RawUpdateExpression, SubstitutesExactly
      (substituteUpdate isReserved names.get values.get raw)
      (substituteUpdate isReserved (ρ.keys names).get (τ.keys values).get (raw.rename ρ τ))
      ((∀ leaf ∈ raw.leaves, leaf.Resolves names values) ∧
        ∀ o ∈ raw.operands, ∃ v, o = .valueRef v)
      (raw.filled names values) :=
  ⟨fun raw => substitutesExactly_of_yields (substituteCondition_yields raw),
    fun raw => substitutesExactly_of_yields (substituteUpdate_yields raw)⟩

end Rektifier
