import Rektifier.KeyConditionCorrect

namespace Rektifier

variable {schema : TableSchema} {cond : Condition} {bounds : QueryKeyBounds}

/-- Bounds of an expression that reads as written mean what it says. -/
theorem KeyExpression.agrees (h : KeyExpression schema cond bounds) (hreads : cond.ReadsAsWritten) :
    KeyConditionAgrees schema cond bounds := by
  rintro item ⟨pk, sk⟩ hkey
  obtain ⟨⟨hpk, _⟩, hskType, hsk⟩ := extractKeyPair_ok_iff.mp hkey
  cases h with
  | @hash _ p flag lit hterm hname _ =>
    have hshow : (⟨lit, none⟩ : QueryKeyBounds).admits (pk, sk) = (SkCondition.eq lit).admits pk := by
      simp [QueryKeyBounds.admits]
    rw [hshow]
    rcases hreads with ⟨htop, hleft⟩ | hnum | ⟨_, hempty⟩
    · exact hterm.agrees hname hpk (hterm.pathsTopLevel_iff.mp htop) hleft
    · obtain ⟨hadmits, hholds⟩ := hterm.false_of_not_numeral hname hpk hnum
      rw [hadmits, hholds]
    · rw [hterm.emptyRange_eq] at hempty
      cases hempty
  | @ranged a b p q flag flag' lit c skAttr skType hterm hname _ hschema hterm' hname' _ =>
    obtain ⟨v, rfl⟩ : ∃ v, sk = some v := by
      rw [hschema] at hskType
      obtain ⟨v, hv, _⟩ := Option.map_eq_some_iff.mp hskType
      exact ⟨v, hv⟩
    have hget : item.get skAttr = some (kvToAv v) := hsk _ hschema
    have hshow : (⟨lit, some c⟩ : QueryKeyBounds).admits (pk, some v)
        = ((SkCondition.eq lit).admits pk && c.admits v) := by
      simp [QueryKeyBounds.admits]
    rw [hshow, Condition.holdsOn]
    rcases hreads with ⟨htop, hleft⟩ | hnum | ⟨htop, hempty⟩
    · obtain ⟨htop, htop'⟩ := (pathsTopLevel_and a b).mp htop
      obtain ⟨hleft, hleft'⟩ := Bool.and_eq_true_iff.mp hleft
      rw [hterm.agrees hname hpk (hterm.pathsTopLevel_iff.mp htop) hleft,
        hterm'.agrees hname' hget (hterm'.pathsTopLevel_iff.mp htop') hleft']
    · rw [numeralLiterals_and, not_and_or] at hnum
      rcases hnum with hnum | hnum
      · obtain ⟨hadmits, hholds⟩ := hterm.false_of_not_numeral hname hpk hnum
        rw [hadmits, hholds, Bool.false_and, Bool.false_and]
      · obtain ⟨hadmits, hholds⟩ := hterm'.false_of_not_numeral hname' hget hnum
        rw [hadmits, hholds, Bool.and_false, Bool.and_false]
    · have hrange : c.emptyRange := by
        rw [← hterm'.emptyRange_eq]
        exact hempty
      rw [SkCondition.admits_of_emptyRange hrange, Bool.and_false]
      rw [Ne, pathsTopLevel_and, hterm.pathsTopLevel_iff, hterm'.pathsTopLevel_iff,
        not_and_or] at htop
      -- one of the two paths is nested and its term false
      rcases htop with htop | htop
      · rw [hterm.holdsOn_nested hname (by simpa using htop) hpk, Bool.false_and]
      · rw [hterm'.holdsOn_nested hname' (by simpa using htop) hget, Bool.and_false]

theorem extractKeyPair_encodeLek {pk : KeyValue} {sk : Option KeyValue}
    (hdistinct : ∀ key ∈ schema.sk, key.1 ≠ schema.pkAttr) (hpk : pk.keyType = schema.pkType)
    (hsk : sk.map KeyValue.keyType = schema.sk.map Prod.snd) :
    extractKeyPair (encodeLek pk sk schema) schema = .ok (pk, sk) := by
  rw [extractKeyPair_ok_iff]
  rcases hschema : schema.sk with _ | ⟨attr, t⟩
  · rw [hschema] at hsk
    obtain rfl := Option.map_eq_none_iff.mp hsk
    simp [encodeLek, hschema, hpk]
  · rw [hschema] at hsk
    obtain ⟨v, rfl, htype⟩ := Option.map_eq_some_iff.mp hsk
    have hne : schema.pkAttr ≠ attr := fun heq => hdistinct _ hschema heq.symm
    simp [encodeLek, hschema, hpk, htype, OrderedMap.get_insert_of_ne _ hne]

theorem exists_keyType (t : KeyType) : ∃ v : KeyValue, v.keyType = t := by
  cases t with
  | s => exact ⟨.s "", rfl⟩
  | n => exact ⟨.n "0", rfl⟩
  | b => exact ⟨.b [], rfl⟩

/-- An ordering turned round differs on a value above its bound. -/
theorem SkCondition.exists_flip_ne {c : SkCondition} {t : KeyType} (htyped : c.Typed t)
    (horder : c.hasOrder) (hflip : c.flip ≠ c) :
    ∃ v : KeyValue, v.keyType = t ∧ c.admits v ≠ c.flip.admits v := by
  cases c with
  | lt w | le w | gt w | ge w =>
    obtain ⟨v, hv, _, hgt⟩ := exists_key_gt horder
    refine ⟨v, hv.trans htyped, ?_⟩
    simp [SkCondition.admits, SkCondition.flip, hgt, ComparisonOp.meets]
  | _ => exact absurd rfl hflip

/-- Where the bounds mean what it says, an expression reads as written. -/
theorem KeyExpression.readsAsWritten (h : KeyExpression schema cond bounds)
    (hdistinct : ∀ key ∈ schema.sk, key.1 ≠ schema.pkAttr)
    (hagrees : KeyConditionAgrees schema cond bounds) : cond.ReadsAsWritten := by
  by_cases hnum : cond.NumeralLiterals
  swap
  · exact .inr (.inl hnum)
  cases h with
  | @hash _ p flag lit hterm hname htype =>
    have hpkAdmits : (SkCondition.eq lit).admits lit := by
      simp [SkCondition.admits, keyOrder_self (hterm.numeralLiterals_iff.mp hnum),
        ComparisonOp.meets]
    obtain ⟨sk, hsk⟩ : ∃ sk : Option KeyValue,
        sk.map KeyValue.keyType = schema.sk.map Prod.snd := by
      rcases schema.sk with _ | ⟨attr, t⟩
      · exact ⟨none, rfl⟩
      · obtain ⟨v, hv⟩ := exists_keyType t
        exact ⟨some v, congrArg some hv⟩
    have hkey := extractKeyPair_encodeLek hdistinct htype hsk
    obtain ⟨⟨hgetPk, _⟩, _⟩ := extractKeyPair_ok_iff.mp hkey
    have hholds : cond.holdsOn (encodeLek lit sk schema) := by
      rw [← hagrees _ _ hkey]
      simp [QueryKeyBounds.admits, hpkAdmits]
    rcases hterm.holdsOn_cases hname hgetPk with ⟨_, hfalse⟩ | ⟨htop, _⟩
    · rw [hholds] at hfalse
      cases hfalse
    · exact .inl ⟨hterm.pathsTopLevel_iff.mpr htop, hterm.pathsOnLeft_iff.mpr (.inr rfl)⟩
  | @ranged a b p q flag flag' lit c skAttr skType hterm hname htype hschema hterm' hname' htyped =>
    obtain ⟨hnumA, hnumB⟩ := (numeralLiterals_and a b).mp hnum
    have horder := hterm.numeralLiterals_iff.mp hnumA
    have horder' := hterm'.numeralLiterals_iff.mp hnumB
    have hpkAdmits : (SkCondition.eq lit).admits lit := by
      simp [SkCondition.admits, keyOrder_self horder, ComparisonOp.meets]
    -- what the bounds and the expression say of an item with the partition value and any sort value
    have hitem : ∀ v : KeyValue, v.keyType = skType → ∃ item : Item,
        item.get schema.pkAttr = some (kvToAv lit) ∧ item.get skAttr = some (kvToAv v) ∧
        c.admits v = (a.holdsOn item && b.holdsOn item) := by
      intro v hv
      have hskType : (some v).map KeyValue.keyType = schema.sk.map Prod.snd := by
        rw [hschema, Option.map_some, Option.map_some, hv]
      have hkey := extractKeyPair_encodeLek hdistinct htype hskType
      obtain ⟨⟨hgetPk, _⟩, _, hgetSk⟩ := extractKeyPair_ok_iff.mp hkey
      refine ⟨_, hgetPk, hgetSk _ hschema, ?_⟩
      have hagree := hagrees _ _ hkey
      simpa [QueryKeyBounds.admits, hpkAdmits, Condition.holdsOn] using hagree
    by_cases htop : checkConditionPathsTopLevel (Condition.and a b) = .ok ()
    · refine .inl ⟨htop, ?_⟩
      obtain ⟨htopA, htopB⟩ := (pathsTopLevel_and a b).mp htop
      have hleftA : a.pathsOnLeft := hterm.pathsOnLeft_iff.mpr (.inr rfl)
      have hleftB : b.pathsOnLeft := by
        by_contra hleft
        rw [hterm'.pathsOnLeft_iff, not_or] at hleft
        obtain ⟨hflag, hflip⟩ := hleft
        obtain ⟨v, hv, hne⟩ := SkCondition.exists_flip_ne htyped horder' hflip
        obtain ⟨item, hgetPk, hgetSk, hboth⟩ := hitem v hv
        have hholdsA := hterm.agrees hname hgetPk (hterm.pathsTopLevel_iff.mp htopA) hleftA
        rw [← hholdsA, hpkAdmits, Bool.true_and] at hboth
        rcases hterm'.holdsOn_cases hname' hgetSk with ⟨hnested, _⟩ | ⟨_, hholdsB⟩
        · rw [hterm'.pathsTopLevel_iff.mp htopB] at hnested
          cases hnested
        · rw [if_pos (by simpa using hflag)] at hholdsB
          exact hne (hboth.trans hholdsB)
      simp [Condition.pathsOnLeft, hleftA, hleftB]
    · refine .inr (.inr ⟨htop, ?_⟩)
      rw [Condition.emptyRange, hterm'.emptyRange_eq]
      by_contra hrange
      obtain ⟨v, hv, hadmits⟩ := SkCondition.exists_admitted htyped horder' (by simpa using hrange)
      obtain ⟨item, hgetPk, hgetSk, hboth⟩ := hitem v hv
      rw [hadmits, eq_comm, Bool.and_eq_true] at hboth
      rw [pathsTopLevel_and, hterm.pathsTopLevel_iff, hterm'.pathsTopLevel_iff,
        not_and_or] at htop
      rcases htop with htop | htop
      · rw [hterm.holdsOn_nested hname (by simpa using htop) hgetPk] at hboth
        exact Bool.false_ne_true hboth.1
      · rw [hterm'.holdsOn_nested hname' (by simpa using htop) hgetSk] at hboth
        exact Bool.false_ne_true hboth.2

/-- What an accepted KeyConditionExpression is lowered to means what it says, on every item with a
typed key, where the expression reads as written; and only there, as long as the two key attributes
differ. -/
theorem key_condition_agrees_iff (h : extractKeyCondition cond schema = .ok bounds) :
    (cond.ReadsAsWritten → KeyConditionAgrees schema cond bounds) ∧
    ((∀ key ∈ schema.sk, key.1 ≠ schema.pkAttr) →
      KeyConditionAgrees schema cond bounds → cond.ReadsAsWritten) := by
  have hexpr := extractKeyCondition_ok h
  exact ⟨hexpr.agrees, hexpr.readsAsWritten⟩

def orderSchema : TableSchema :=
  ⟨"orders", "rekt_t_orders", "customer", .s, some ("placed", .s), "data", [], [], .plain⟩

def placedBefore : Condition :=
  .and (.compare .eq (.path (.attr "customer")) (.value (.s "c1")))
    (.compare .lt (.path (.attr "placed")) (.value (.s "2024")))

theorem key_condition_agrees_sample :
    extractKeyCondition placedBefore orderSchema = .ok ⟨.s "c1", some (.lt (.s "2024"))⟩ ∧
    KeyConditionAgrees orderSchema placedBefore ⟨.s "c1", some (.lt (.s "2024"))⟩ := by
  have hok : extractKeyCondition placedBefore orderSchema
      = .ok ⟨.s "c1", some (.lt (.s "2024"))⟩ := by decide
  exact ⟨hok, (key_condition_agrees_iff hok).1 (.inl ⟨rfl, rfl⟩)⟩

def placedAfter : Condition :=
  .and (.compare .eq (.path (.attr "customer")) (.value (.s "c1")))
    (.compare .lt (.value (.s "2024")) (.path (.attr "placed")))

/-- The value on the left: the bound is read the wrong way round. -/
theorem value_on_left_lowered_unflipped : ∃ item key,
    extractKeyCondition placedAfter orderSchema = .ok ⟨.s "c1", some (.lt (.s "2024"))⟩ ∧
    extractKeyPair item orderSchema = .ok key ∧
    placedAfter.holdsOn item = true ∧
    (⟨.s "c1", some (.lt (.s "2024"))⟩ : QueryKeyBounds).admits key = false := by
  refine ⟨encodeLek (.s "c1") (some (.s "2025")) orderSchema, (.s "c1", some (.s "2025")), ?_⟩
  decide

end Rektifier
