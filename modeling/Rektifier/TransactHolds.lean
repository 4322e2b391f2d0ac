import Rektifier.TransactFrame

namespace Rektifier

open List Function

variable {m : SchemaMap}

/-- What a running call relies on; `base` is what it takes the rows to have been before its own
operations. -/
structure TxHolds (s : IsolationState m) (c : CallId) (tx : TxState m) (base : Items) : Prop where
  accepted : ∀ p ∈ tx.todo, AcceptedOp m p
  applied : applyAll m base tx.done = some tx.view.items
  addressed : ∀ p ∈ tx.done, ∀ r, p.rowKey? = some r → s.lock r = some c ∨ r ∈ tx.missed
  locked : ∀ r, s.lock r = some c → s.db.items r.1 r.2 = base r.1 r.2
  missed : ∀ r ∈ tx.missed, base r.1 r.2 = none
  written : ∀ r ∈ tx.written, s.lock r = some c
  unwritten : ∀ r, r ∉ tx.written → tx.view.items r.1 r.2 = base r.1 r.2
  older : ∀ r, tx.seen r ≤ s.version r
  current : ∀ r, s.version r = tx.seen r → s.lock r ≠ some c → s.db.items r.1 r.2 = base r.1 r.2

section

variable {s s' : IsolationState m} {c : CallId} {tx : TxState m} {base : Items}

/-- It stays while others neither take the call's locks nor change a row it has locked, and count
the rows they change. -/
theorem TxHolds.transfer (h : TxHolds s c tx base)
    (hlock : ∀ r, s'.lock r = some c ↔ s.lock r = some c)
    (hdb : ∀ r, s'.version r = s.version r ∧ s'.db.items r.1 r.2 = s.db.items r.1 r.2 ∨
      s.version r < s'.version r ∧ s.lock r ≠ some c) : TxHolds s' c tx base where
  accepted := h.accepted
  applied := h.applied
  addressed p hp r hr := by
    rw [hlock]
    exact h.addressed p hp r hr
  locked r hr := by
    have hheld := (hlock r).mp hr
    rcases hdb r with ⟨_, hsame⟩ | ⟨_, hfree⟩
    · exact hsame.trans (h.locked r hheld)
    · exact absurd hheld hfree
  missed := h.missed
  written r hr := (hlock r).mpr (h.written r hr)
  unwritten := h.unwritten
  older r := by
    have hseen := h.older r
    rcases hdb r with ⟨hsame, _⟩ | ⟨hmore, _⟩ <;> omega
  current r hversion hfree := by
    have hseen := h.older r
    rcases hdb r with ⟨hsame, hitem⟩ | ⟨hmore, _⟩
    · exact hitem.trans (h.current r (hsame.symm.trans hversion) fun hl => hfree ((hlock r).mpr hl))
    · omega

variable {p : TransactWritePlanItem} {op : TransactWriteOp} {r : RowKey}
  {rest : List TransactWritePlanItem} {view : Database m}

theorem AcceptedOp.apply_of_run (ha : AcceptedOp m p) (hop : p.op? = some op) {db db' : Database m}
    (hrun : op.run db none = .ok db') : p.apply m db.items = some db'.items := by
  rcases ha.run_apply hop db with ⟨db₁, hrun₁, happly⟩ | ⟨e, hrun₁, _⟩
  · cases hrun₁.symm.trans hrun
    exact happly
  · cases hrun₁.symm.trans hrun

theorem viewFor_of_ne (s : IsolationState m) (c : CallId) (tx : TxState m) {r' : RowKey}
    (h : r' ≠ r) : (s.viewFor c tx r).items r'.1 r'.2 = tx.view.items r'.1 r'.2 := by
  unfold IsolationState.viewFor
  split
  next => rfl
  next => rw [items_merge, if_neg (by simpa using h)]

theorem viewFor_held (hheld : s.lock r = some c) : s.viewFor c tx r = tx.view := if_pos hheld

theorem viewFor_fetched (hfree : s.lock r ≠ some c) :
    (s.viewFor c tx r).items r.1 r.2 = s.db.items r.1 r.2 := by
  rw [IsolationState.viewFor, if_neg hfree, items_merge, if_pos mem_cons_self]

theorem kind_of_locked_unchanged {existing : Option Json} (hlock : p.takesLock existing)
    (hchanges : p.changes existing = false) : p.kind = .conditionCheck := by
  unfold TransactWritePlanItem.takesLock TransactWriteKind.writes at hlock
  unfold TransactWritePlanItem.changes at hchanges
  rcases hkind : p.kind with item | _ | _ | ⟨expression, key⟩ <;>
    simp_all

theorem changes_of_missed {existing : Option Json} (hlock : p.takesLock existing = false) :
    existing = none ∧ p.changes existing = false := by
  obtain ⟨hmissing, hwrites⟩ := Bool.or_eq_false_iff.mp hlock
  have hnone : existing = none := by simpa using hmissing
  refine ⟨hnone, ?_⟩
  unfold TransactWriteKind.writes at hwrites
  unfold TransactWritePlanItem.changes
  rcases hkind : p.kind with item | _ | _ | ⟨expression, key⟩ <;> simp_all

namespace TxHolds

variable (h : TxHolds s c tx base)

include h

theorem unlocked_view (hfree : s.lock r ≠ some c) : tx.view.items r.1 r.2 = base r.1 r.2 :=
  h.unwritten r fun hw => hfree (h.written r hw)

/-- The row is committed as the call takes it to be, or was deleted since the snapshot and not
looked at. -/
theorem available_cases (hav : s.Available c tx p r) :
    s.db.items r.1 r.2 = base r.1 r.2 ∨
    s.lock r ≠ some c ∧ s.db.items r.1 r.2 = none ∧ r ∉ tx.missed := by
  rcases hav with hheld | ⟨hfree, hav⟩
  · exact .inl (h.locked r hheld)
  · have hother : s.lock r ≠ some c := by rw [hfree]; exact nofun
    rcases hav with hversion | ⟨hgone, _⟩
    · exact .inl (h.current r hversion hother)
    · by_cases hmiss : r ∈ tx.missed
      · exact .inl (hgone.trans (h.missed r hmiss).symm)
      · exact .inr ⟨hother, hgone, hmiss⟩

/-- The call would have done the same had it found the row as it is committed now. -/
theorem refresh (hav : s.Available c tx p r) :
    applyAll m (base.set r.1 r.2 (s.db.items r.1 r.2)) tx.done
      = some (s.viewFor c tx r).items := by
  rcases h.available_cases hav with hsame | ⟨hfree, hgone, hmiss⟩
  · have hview : (s.viewFor c tx r).items = tx.view.items := by
      by_cases hheld : s.lock r = some c
      · rw [viewFor_held hheld]
      · refine eq_of_agree {r} ?_ ?_
        · rintro _ rfl
          rw [viewFor_fetched hheld, hsame, h.unlocked_view hheld]
        · intro r' hr'
          exact viewFor_of_ne s c tx hr'
    rw [hsame, Items.set_self, hview]
    exact h.applied
  · -- no operation so far addresses the row
    have hrows : ∀ p ∈ tx.done, ∀ r', p.rowKey? = some r' → r' ∈ ({r}ᶜ : Set RowKey) := by
      rintro p hp r' hr' rfl
      rcases h.addressed p hp r' hr' with hheld | hmem
      · exact hfree hheld
      · exact hmiss hmem
    have hagree : Agree {r}ᶜ base (base.set r.1 r.2 (s.db.items r.1 r.2)) := by
      intro r' hr'
      exact (Items.set_of_ne base _ hr').symm
    obtain ⟨τ, hτ, hon, hoff⟩ := applyAll_agree hrows hagree h.applied
    rw [hτ]
    refine congrArg some (eq_of_agree {r}ᶜ ?_ ?_)
    · intro r' hr'
      rw [viewFor_of_ne s c tx hr', hon r' hr']
    · intro r' hr'
      have hr : r' = r := by simpa using hr'
      rw [← hoff r' hr', hr, Items.set_at, viewFor_fetched hfree]

/-- From here on the call takes the row to have been what is committed now. -/
theorem afterLocked (htodo : tx.todo = p :: rest) (hop : p.op? = some op)
    (hr : p.rowKey? = some r) (hlock : p.takesLock (tx.view.items r.1 r.2))
    (hav : s.Available c tx p r) (hrun : op.run (s.viewFor c tx r) none = .ok view) :
    TxHolds { s with lock := update s.lock r (some c) } c (tx.afterLocked p rest r view)
      (base.set r.1 r.2 (s.db.items r.1 r.2)) := by
  have ha : AcceptedOp m p := h.accepted p (by rw [htodo]; exact mem_cons_self)
  have happly := ha.apply_of_run hop hrun
  obtain ⟨v, hleft, hview⟩ := (apply_eq_some hr).mp happly
  have hother : ∀ {r'}, r' ≠ r → update s.lock r (some c) r' = s.lock r' :=
    fun hne => update_of_ne hne _ _
  have hkept : ∀ {r'}, s.lock r' = some c → update s.lock r (some c) r' = some c := by
    intro r' hr'
    by_cases hsame : r' = r
    · rw [hsame, update_self]
    · rw [hother hsame, hr']
  constructor
  case accepted =>
    intro q hq
    exact h.accepted q (by rw [htodo]; exact mem_cons_of_mem _ hq)
  case applied => exact applyAll_concat (h.refresh hav) happly
  case addressed =>
    intro q hq r' hr'
    rcases mem_append.mp hq with hq | hq
    · exact (h.addressed q hq r' hr').imp hkept id
    · cases mem_singleton.mp hq
      cases hr.symm.trans hr'
      exact .inl (update_self ..)
  case locked =>
    intro r' hr'
    by_cases hsame : r' = r
    · rw [hsame, Items.set_at]
    · rw [Items.set_of_ne base _ hsame]
      exact h.locked r' ((hother hsame).symm.trans hr')
  case missed =>
    intro r' hr'
    by_cases hsame : r' = r
    · subst hsame
      rw [Items.set_at]
      rcases h.available_cases hav with heq | ⟨_, hgone, _⟩
      · exact heq.trans (h.missed r' hr')
      · exact hgone
    · rw [Items.set_of_ne base _ hsame]
      exact h.missed r' hr'
  case written =>
    intro r' hr'
    simp only [TxState.afterLocked] at hr'
    split at hr'
    next =>
      rcases mem_cons.mp hr' with rfl | hr'
      · exact update_self ..
      · exact hkept (h.written r' hr')
    next => exact hkept (h.written r' hr')
  case unwritten =>
    intro r' hr'
    simp only [TxState.afterLocked] at hr' ⊢
    rw [hview]
    by_cases hsame : r' = r
    · subst hsame
      split at hr'
      next => exact absurd mem_cons_self hr'
      next hchanges =>
        have hcheck := kind_of_locked_unchanged hlock (Bool.eq_false_iff.mpr hchanges)
        have hsame : v = (s.viewFor c tx r').items r'.1 r'.2 :=
          leftover_of_not_changes (by simp [TransactWritePlanItem.changes, hcheck]) hleft
        rw [Items.set_at, Items.set_at, hsame]
        by_cases hheld : s.lock r' = some c
        · rw [viewFor_held hheld, h.unwritten r' hr', h.locked r' hheld]
        · exact viewFor_fetched hheld
    · have hold : r' ∉ tx.written := by
        intro hw
        split at hr'
        next => exact hr' (mem_cons_of_mem _ hw)
        next => exact hr' hw
      rw [Items.set_of_ne _ v hsame, Items.set_of_ne base _ hsame, viewFor_of_ne s c tx hsame,
        h.unwritten r' hold]
  case older => exact h.older
  case current =>
    intro r' hversion hfree
    by_cases hsame : r' = r
    · exact absurd (hsame ▸ update_self ..) hfree
    · rw [Items.set_of_ne base _ hsame]
      exact h.current r' hversion fun hheld => hfree ((hother hsame).trans hheld)

/-- An operation that finds no row and writes none. -/
theorem afterMissed (htodo : tx.todo = p :: rest) (hop : p.op? = some op)
    (hr : p.rowKey? = some r) (hlock : p.takesLock (tx.view.items r.1 r.2) = false)
    (hrun : op.run tx.view none = .ok view) :
    TxHolds s c (tx.afterMissed p rest r (s.lock r == some c) view) base := by
  have ha : AcceptedOp m p := h.accepted p (by rw [htodo]; exact mem_cons_self)
  have happly := ha.apply_of_run hop hrun
  obtain ⟨hnone, hchanges⟩ := changes_of_missed hlock
  obtain ⟨v, hleft, hview⟩ := (apply_eq_some hr).mp happly
  have hsame : view.items = tx.view.items := by
    rw [hview, leftover_of_not_changes hchanges hleft, Items.set_self]
  constructor
  case accepted =>
    intro q hq
    exact h.accepted q (by rw [htodo]; exact mem_cons_of_mem _ hq)
  case applied => exact applyAll_concat h.applied happly
  case addressed =>
    intro q hq r' hr'
    simp only [TxState.afterMissed]
    rcases mem_append.mp hq with hq | hq
    · refine (h.addressed q hq r' hr').imp id fun hmem => ?_
      split
      · exact hmem
      · exact mem_cons_of_mem _ hmem
    · cases mem_singleton.mp hq
      cases hr.symm.trans hr'
      by_cases hheld : s.lock r = some c
      · exact .inl hheld
      · right
        rw [if_neg (by simpa using hheld)]
        exact mem_cons_self
  case locked => exact h.locked
  case missed =>
    intro r' hr'
    simp only [TxState.afterMissed] at hr'
    split at hr'
    next => exact h.missed r' hr'
    next hheld =>
      rcases mem_cons.mp hr' with rfl | hr'
      · exact (h.unlocked_view (by simpa using hheld)).symm.trans hnone
      · exact h.missed r' hr'
  case written => exact h.written
  case unwritten =>
    intro r' hr'
    rw [← h.unwritten r' hr', ← hsame]
    rfl
  case older => exact h.older
  case current => exact h.current

/-- A call whose missing rows are still missing commits what its operations make of the committed
items. -/
theorem commit_applies (habsent : ∀ r ∈ tx.missed, s.db.items r.1 r.2 = none) :
    applyAll m s.db.items tx.done = some (s.db.merge tx.view tx.written).items := by
  have hagree : Agree {r | s.lock r = some c ∨ r ∈ tx.missed} base s.db.items := by
    rintro r (hheld | hmiss)
    · exact (h.locked r hheld).symm
    · rw [h.missed r hmiss, habsent r hmiss]
  obtain ⟨τ, hτ, hon, hoff⟩ := applyAll_agree (fun p hp r hr => h.addressed p hp r hr) hagree
    h.applied
  rw [hτ]
  congr 1
  funext name k
  change τ (name, k).1 (name, k).2 = (s.db.merge tx.view tx.written).items (name, k).1 (name, k).2
  rw [items_merge]
  by_cases hrow : s.lock (name, k) = some c ∨ (name, k) ∈ tx.missed
  · rw [← hon _ hrow]
    split
    next => rfl
    next hw => exact (h.unwritten _ hw).trans (hagree _ hrow)
  · rw [← hoff _ hrow, if_neg fun hw => hrow (.inl (h.written _ hw))]

end TxHolds

end

end Rektifier
