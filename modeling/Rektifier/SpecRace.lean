import Rektifier.SpecLedger

namespace Rektifier

variable {names : PgNames} {hex8 : String → String} {s s' : SpecsState} {e : SpecsEvent}
  {bits : GsiBits}

/-- A writer of the whole array has read the GSIs and bits that are stored when it writes. -/
def ReadsCurrent (s : SpecsState) : SpecsEvent → Prop
  | .commit c => ∀ entry req, s.updates c = .prepared entry req → req.needsSpecUpdate = true →
      gsiBits entry.gsis = gsiBits s.table.entry.gsis
  | .write p => ∀ server row verdict, s.passes p = .judged server row verdict →
      gsiBits row.gsis = gsiBits s.table.entry.gsis
  | _ => True

/-- What is stored is what the committed changes made of the GSIs. -/
def SpecsState.Booked (bits : GsiBits) (s : SpecsState) : Prop :=
  gsiBits s.table.entry.gsis = ledger bits s.history

/-- No committed change is lost: a GSI is there exactly when the last create or finished delete of
it was a create, and its serveable bit is the one that was set last. -/
structure SpecsState.NothingLost (bits : GsiBits) (s : SpecsState) : Prop where
  present : ∀ name, (s.table.entry.gsis.get name).isSome
    = (lastPresence name s.history).getD (bits name).isSome
  serveable : ∀ name g, s.table.entry.gsis.get name = some g →
    some g.serveable = (lastBit name s.history).or (bits name)

theorem Booked.nothingLost (h : s.Booked bits) : s.NothingLost bits := by
  constructor
  · intro name
    rw [← ledger_isSome, ← h, gsiBits, Option.isSome_map]
  · intro name g hg
    refine ledger_bit ?_
    rw [← h, gsiBits, hg, Option.map_some]

/-- Every pass has judged its row's GSIs one by one. -/
def SpecsState.Judged (s : SpecsState) : Prop :=
  ∀ p server row verdict, s.passes p = .judged server row verdict →
    ∃ f, verdict = row.gsis.mapVals f

theorem Booked.change {table : TableState} {changes : List SpecChange}
    (h : s.Booked bits)
    (hbits : gsiBits table.entry.gsis = ledger (gsiBits s.table.entry.gsis) changes) :
    (s.change table changes).Booked bits := by
  change gsiBits table.entry.gsis = ledger bits (s.history ++ changes)
  rw [hbits, ledger_append, ← h]

theorem Booked.afterUpdate {entry : TableEntry} {req : UpdateTableRequest} {table : TableState}
    {creates : List GsiSpec} (h : s.Booked bits)
    (hupdate : updateTable names hex8 ⟨entry, s.table.columns⟩ req = .ok (table, creates))
    (hcurrent : req.needsSpecUpdate → gsiBits entry.gsis = gsiBits s.table.entry.gsis) :
    (s.afterUpdate entry req table creates).Booked bits := by
  obtain ⟨hcreates, hentry, _⟩ := updateTable_ok hupdate
  unfold SpecsState.afterUpdate
  split
  next hneeds =>
    refine Booked.change h ?_
    rw [hentry, ← hcurrent hneeds]
    exact gsiBits_mergedGsis (validateCreates_unserved hcreates)
  next => exact h

theorem Booked.afterVerdict {row : TableEntry} {verdict : OrderedMap String GsiSpec}
    (h : s.Booked bits) (hjudged : ∃ f, verdict = row.gsis.mapVals f)
    (hcurrent : gsiBits row.gsis = gsiBits s.table.entry.gsis) :
    (s.afterVerdict row verdict).Booked bits := by
  obtain ⟨f, rfl⟩ := hjudged
  refine Booked.change h ?_
  rw [← hcurrent]
  exact gsiBits_verdict

/-- What holds of every judged row and its verdict. -/
def SpecsState.Verdicts (prop : TableEntry → OrderedMap String GsiSpec → Prop) (s : SpecsState) :
    Prop :=
  ∀ p server row verdict, s.passes p = .judged server row verdict → prop row verdict

section Verdicts

variable {prop : TableEntry → OrderedMap String GsiSpec → Prop}

theorem Verdicts.setPass {p : Nat} {phase : PassPhase} (h : s.Verdicts prop)
    (hphase : ∀ server row verdict, phase = .judged server row verdict → prop row verdict) :
    (s.setPass p phase).Verdicts prop := by
  intro q server row verdict hq
  by_cases hsame : q = p
  · subst hsame
    simp only [SpecsState.setPass, Function.update_self] at hq
    exact hphase server row verdict hq
  · simp only [SpecsState.setPass, Function.update_of_ne hsame] at hq
    exact h q server row verdict hq

theorem SpecsStep.verdicts (hstep : SpecsStep names hex8 s e s') (h : s.Verdicts prop)
    (hjudge : ∀ row columns primaryKey indexDefs,
      prop row (reconcileGsis ⟨row, columns⟩ primaryKey indexDefs)) : s'.Verdicts prop := by
  cases hstep with
  | prepare | fail | promote | demote | remove => exact h
  | commit _ _ =>
    unfold SpecsState.afterUpdate
    split
    next => exact h
    next => exact h
  | load | keep | skip | stop | write | replace => exact Verdicts.setPass h nofun
  | judge primaryKey indexDefs _ =>
    refine Verdicts.setPass h ?_
    intro server row verdict hphase
    cases hphase
    exact hjudge _ _ primaryKey indexDefs

end Verdicts

theorem SpecsStep.judged (hstep : SpecsStep names hex8 s e s') (h : s.Judged) : s'.Judged :=
  SpecsStep.verdicts hstep h fun _ _ _ _ => ⟨_, rfl⟩

/-- A step with a current reading loses nothing. -/
theorem SpecsStep.booked (hstep : SpecsStep names hex8 s e s') (hcurrent : ReadsCurrent s e)
    (hjudged : s.Judged) (h : s.Booked bits) : s'.Booked bits := by
  cases hstep with
  | prepare | fail | load | judge | keep | skip | replace | stop => exact h
  | commit hphase hupdate => exact Booked.afterUpdate h hupdate (hcurrent _ _ hphase)
  | promote name => exact Booked.change h (gsiBits_setServeable s.table name true none)
  | demote name => exact Booked.change h (gsiBits_setServeable s.table name false _)
  | remove name => exact Booked.change h (gsiBits_removeGsi s.table name)
  | write hphase =>
    exact Booked.afterVerdict h (hjudged _ _ _ _ hphase) (hcurrent _ _ _ hphase)

/-- A table nobody is working on. -/
def SpecsState.start (table : TableState) (cache : ServerId → TableEntry) : SpecsState :=
  ⟨table, cache, fun _ => .idle, fun _ => .idle, []⟩

/-- Where every whole-array write goes back on what is stored, no change to `gsi_specs` is lost. -/
theorem gsi_specs_nothing_lost {table : TableState} {cache : ServerId → TableEntry}
    {trace : List (SpecsState × SpecsEvent)}
    (hrun : Run (SpecsStep names hex8) (SpecsState.start table cache) trace s)
    (hcurrent : ∀ step ∈ trace, ReadsCurrent step.1 step.2) :
    s.NothingLost (gsiBits table.entry.gsis) := by
  have hboth : s.Judged ∧ s.Booked (gsiBits table.entry.gsis) := by
    refine hrun.invariant (fun s => s.Judged ∧ s.Booked (gsiBits table.entry.gsis)) ?_ hcurrent
      ⟨nofun, rfl⟩
    intro s e s' hstep hcurrent h
    exact ⟨hstep.judged h.1, hstep.booked hcurrent h.1 h.2⟩
  exact Booked.nothingLost hboth.2

def createByKind : UpdateTableRequest :=
  ⟨[⟨"by-kind", [⟨"kind", "HASH"⟩], some "ALL"⟩], [], some [⟨"kind", "S"⟩]⟩

def createByOwner : UpdateTableRequest :=
  ⟨[⟨"by-owner", [⟨"owner", "HASH"⟩], some "ALL"⟩], [], some [⟨"owner", "S"⟩]⟩

def unservedOn (name attr : String) : GsiSpec :=
  plannedSpec id "rekt_t_orders" ⟨name, (attr, .s), none⟩ .dualWrite false (some creatingReason)

def taggedSpecs : SpecsState := SpecsState.start taggedTable fun _ => taggedTable.entry

theorem creates_ok : ∃ table later,
    updateTable plainNames id taggedTable createByKind
      = .ok (table, [unservedOn "by-kind" "kind"]) ∧
    updateTable plainNames id ⟨taggedTable.entry, table.columns⟩ createByOwner
      = .ok (later, [unservedOn "by-owner" "owner"]) :=
  ⟨_, _, rfl, rfl⟩

/-- A pass that has loaded the row stops when a call creates an index; the worker promotes it, and
the next pass writes on what is stored then. -/
theorem gsi_specs_nothing_lost_overlap :
    ∃ trace s, Run (SpecsStep plainNames id) taggedSpecs trace s ∧
      trace.map Prod.snd = [.prepare 0, .load 0, .commit 0, .stop 0, .promote "by-kind", .load 0,
        .judge 0, .write 0] ∧
      lastPresence "by-kind" s.history = some true ∧
      s.NothingLost (gsiBits taggedTable.entry.gsis) := by
  obtain ⟨table, _, hupdate, _⟩ := creates_ok
  let s₁ := taggedSpecs.setUpdate 0 (.prepared taggedTable.entry createByKind)
  let s₂ := s₁.setPass 0 (.loaded 0 taggedTable.entry)
  let s₃ := (s₂.afterUpdate taggedTable.entry createByKind table
    [unservedOn "by-kind" "kind"]).setUpdate 0 .returned
  let s₄ := s₃.setPass 0 .idle
  let s₅ := s₄.change (setServeable s₄.table "by-kind" true none) [.marked "by-kind" true]
  let s₆ := s₅.setPass 0 (.loaded 0 s₅.table.entry)
  let s₇ := s₆.setPass 0 (.judged 0 s₅.table.entry (reconcileGsis s₅.table ["id"] fun _ => none))
  have h₁ : SpecsStep plainNames id taggedSpecs (.prepare 0) s₁ := .prepare 0 createByKind rfl
  have h₂ : SpecsStep plainNames id s₁ (.load 0) s₂ := .load 0 rfl
  have h₃ : SpecsStep plainNames id s₂ (.commit 0) s₃ := .commit rfl hupdate
  have h₄ : SpecsStep plainNames id s₃ (.stop 0) s₄ := .stop s₃ 0
  have h₅ : SpecsStep plainNames id s₄ (.promote "by-kind") s₅ := .promote s₄ "by-kind"
  have h₆ : SpecsStep plainNames id s₅ (.load 0) s₆ := .load 0 rfl
  have h₇ : SpecsStep plainNames id s₆ (.judge 0) s₇ := .judge ["id"] (fun _ => none) rfl
  have h₈ : SpecsStep plainNames id s₇ (.write 0) _ := .write rfl
  have hrun := Run.cons h₁ (.cons h₂ (.cons h₃ (.cons h₄ (.cons h₅ (.cons h₆ (.cons h₇ (.cons h₈
    (.nil _))))))))
  refine ⟨_, _, hrun, rfl, rfl, gsi_specs_nothing_lost hrun ?_⟩
  simp only [List.forall_mem_cons, List.not_mem_nil, false_imp_iff, implies_true, and_true]
  refine ⟨trivial, trivial, ?_, trivial, trivial, trivial, trivial, ?_⟩
  · intro entry req hphase _
    cases hphase
    rfl
  · intro server row verdict hphase
    cases hphase
    rfl

/-- Two calls read the same cache, each creates an index, and the second overwrites the first's. -/
theorem concurrent_create_lost :
    ∃ trace s, Run (SpecsStep plainNames id) taggedSpecs trace s ∧
      trace.map Prod.snd = [.prepare 0, .prepare 1, .commit 0, .commit 1] ∧
      s.table.entry.gsis.get "by-kind" = none ∧ lastPresence "by-kind" s.history = some true ∧
      ¬ s.NothingLost (gsiBits taggedTable.entry.gsis) := by
  let s₁ := taggedSpecs.setUpdate 0 (.prepared taggedTable.entry createByKind)
  let s₂ := s₁.setUpdate 1 (.prepared taggedTable.entry createByOwner)
  obtain ⟨table, later, hupdate, hlater⟩ := creates_ok
  let s₃ := (s₂.afterUpdate taggedTable.entry createByKind table
    [unservedOn "by-kind" "kind"]).setUpdate 0 .returned
  have h₁ : SpecsStep plainNames id taggedSpecs (.prepare 0) s₁ := .prepare 0 createByKind rfl
  have h₂ : SpecsStep plainNames id s₁ (.prepare 1) s₂ := .prepare 0 createByOwner rfl
  have h₃ : SpecsStep plainNames id s₂ (.commit 0) s₃ := .commit rfl hupdate
  have h₄ : SpecsStep plainNames id s₃ (.commit 1) _ := .commit rfl hlater
  have hgone : later.entry.gsis.get "by-kind" = none := by
    rw [(updateTable_ok hlater).2.1]
    rfl
  refine ⟨_, _, .cons h₁ (.cons h₂ (.cons h₃ (.cons h₄ (.nil _)))), rfl, hgone, rfl, ?_⟩
  intro h
  have hpresent := h.present "by-kind"
  change (later.entry.gsis.get "by-kind").isSome = true at hpresent
  rw [hgone] at hpresent
  cases hpresent

end Rektifier
