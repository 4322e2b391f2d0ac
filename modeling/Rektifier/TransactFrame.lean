import Rektifier.TransactCorrect
import Rektifier.TransactIsolation

namespace Rektifier

open List Function

/-- The same item under each of the rows. -/
def Agree (rows : Set RowKey) (σ τ : Items) : Prop := ∀ r ∈ rows, σ r.1 r.2 = τ r.1 r.2

variable {m : SchemaMap} {p : TransactWritePlanItem} {ps : List TransactWritePlanItem}
  {σ σ' τ : Items} {r : RowKey} {rows : Set RowKey}

theorem eq_of_agree (rows : Set RowKey) (h : Agree rows σ τ) (hoff : Agree rowsᶜ σ τ) : σ = τ := by
  funext name k
  by_cases hr : (name, k) ∈ rows
  · exact h _ hr
  · exact hoff _ hr

theorem Items.set_at (σ : Items) (name : String) (k : PgKey) (v : Option Json) :
    σ.set name k v name k = v := by
  rw [Items.set, update_self, update_self]

theorem Items.set_of_ne (σ : Items) {name : String} {k : PgKey} (v : Option Json)
    (h : r ≠ (name, k)) : σ.set name k v r.1 r.2 = σ r.1 r.2 := by
  obtain ⟨name', k'⟩ := r
  by_cases hname : name' = name
  · subst hname
    have hk : k' ≠ k := fun hk => h (by rw [hk])
    rw [Items.set, update_self, update_of_ne hk]
  · rw [Items.set, update_of_ne hname]

theorem Items.set_self (σ : Items) (name : String) (k : PgKey) : σ.set name k (σ name k) = σ := by
  rw [Items.set, update_eq_self, update_eq_self]

theorem rowKey?_eq_some :
    p.rowKey? = some r ↔ addressedKey p.pk p.sk = .ok r.2 ∧ p.tableName = r.1 := by
  obtain ⟨name, k⟩ := r
  rw [TransactWritePlanItem.rowKey?]
  rcases addressedKey p.pk p.sk with e | k'
  · simp [Except.toOption]
  · simp [Except.toOption, and_comm]

/-- An operation reads its own row and puts what it leaves there. -/
theorem apply_eq_some (hr : p.rowKey? = some r) : p.apply m σ = some σ' ↔
    ∃ v, p.leftover (m.schema r.1) (σ r.1 r.2) = some v ∧ σ' = σ.set r.1 r.2 v := by
  obtain ⟨hk, hname⟩ := rowKey?_eq_some.mp hr
  rw [apply_eq_leftover σ hk, Option.map_eq_some_iff, hname]
  constructor
  · rintro ⟨v, hv, rfl⟩
    exact ⟨v, hv, rfl⟩
  · rintro ⟨v, hv, rfl⟩
    exact ⟨v, hv, rfl⟩

theorem rowKey?_isSome (h : p.apply m σ = some σ') : ∃ r, p.rowKey? = some r := by
  rcases hk : addressedKey p.pk p.sk with e | k
  · simp [TransactWritePlanItem.apply, hk, Except.toOption] at h
  · exact ⟨(p.tableName, k), rowKey?_eq_some.mpr ⟨hk, rfl⟩⟩

/-- Items that agree on the rows addressed are taken to items that do, and nothing is touched
elsewhere. -/
theorem applyAll_agree (hrows : ∀ p ∈ ps, ∀ r, p.rowKey? = some r → r ∈ rows)
    (hagree : Agree rows σ τ) (h : applyAll m σ ps = some σ') :
    ∃ τ', applyAll m τ ps = some τ' ∧ Agree rows σ' τ' ∧ Agree rowsᶜ τ τ' := by
  induction ps generalizing σ τ with
  | nil =>
    cases h
    exact ⟨τ, rfl, hagree, fun _ _ => rfl⟩
  | cons p ps ih =>
    rw [applyAll, foldlM_cons] at h
    obtain ⟨σ₁, hp, hrest⟩ := Option.bind_eq_some_iff.mp h
    obtain ⟨r, hr⟩ := rowKey?_isSome hp
    have hmem : r ∈ rows := hrows p mem_cons_self r hr
    obtain ⟨v, hleft, rfl⟩ := (apply_eq_some hr).mp hp
    rw [hagree r hmem] at hleft
    have hpτ : p.apply m τ = some (τ.set r.1 r.2 v) := (apply_eq_some hr).mpr ⟨v, hleft, rfl⟩
    have hagree₁ : Agree rows (σ.set r.1 r.2 v) (τ.set r.1 r.2 v) := by
      intro r' hr'
      by_cases hsame : r' = r
      · rw [hsame, Items.set_at, Items.set_at]
      · rw [Items.set_of_ne σ v hsame, Items.set_of_ne τ v hsame, hagree r' hr']
    obtain ⟨τ', happly, hin, hout⟩ :=
      ih (fun q hq => hrows q (mem_cons_of_mem _ hq)) hagree₁ hrest
    refine ⟨τ', ?_, hin, ?_⟩
    · rw [applyAll, foldlM_cons, hpτ]
      exact happly
    · intro r' hr'
      have hsame : r' ≠ r := fun h => hr' (h ▸ hmem)
      rw [← hout r' hr', Items.set_of_ne τ v hsame]

theorem applyAll_append {qs : List TransactWritePlanItem} (h : applyAll m σ ps = some σ')
    (hq : applyAll m σ' qs = some τ) : applyAll m σ (ps ++ qs) = some τ := by
  have hdone : ps.foldlM (fun σ p => p.apply m σ) σ = some σ' := h
  rw [applyAll, foldlM_append, hdone]
  exact hq

theorem applyAll_concat (h : applyAll m σ ps = some σ') (hp : p.apply m σ' = some τ) :
    applyAll m σ (ps ++ [p]) = some τ := by
  refine applyAll_append h ?_
  rw [applyAll, foldlM_cons, hp]
  rfl

theorem leftover_of_not_changes {schema : TableSchema} {existing v : Option Json}
    (hchanges : p.changes existing = false) (h : p.leftover schema existing = some v) :
    v = existing := by
  unfold TransactWritePlanItem.changes at hchanges
  split at hchanges
  next => cases hchanges
  next => cases hchanges
  next hkind =>
    rw [leftover_delete hkind] at h
    have hmissing : existing = none := by simpa using hchanges
    split at h
    next => rw [hmissing, ← Option.some.inj h]
    next => cases h
  next hkind =>
    rw [leftover_conditionCheck hkind] at h
    split at h
    next => exact (Option.some.inj h).symm
    next => cases h

theorem items_merge (db other : Database m) (taken : List RowKey) (r : RowKey) :
    (db.merge other taken).items r.1 r.2 =
      if r ∈ taken then other.items r.1 r.2 else db.items r.1 r.2 := by
  simp only [Database.items, Database.merge, PgTable.items, PgTable.merge, contains_iff_mem]
  split <;> rfl

end Rektifier
