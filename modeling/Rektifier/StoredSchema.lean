import Rektifier.ColumnRefs
import Rektifier.Runs

namespace Rektifier

open List

variable {specs : List GsiSpec} {names : PgNames} {hex8 : String → String}
  {req : UpdateTableRequest} {creates : List GsiSpec} {e : TableEntry}

/-- By name; of two specs with one name the later is kept. -/
def loadGsis (specs : List GsiSpec) : OrderedMap String GsiSpec :=
  .ofList (specs.map fun g => (g.name, g))

def GsiSpec.flagged (g : GsiSpec) (serveable : Bool) (reason : Option String) : GsiSpec :=
  { g with serveable := serveable, unserveableReason := reason }

/-- A deleted Generated GSI leaves `gsi_specs` with the request. -/
def GsiSpec.staysAfter (deletes : List String) (g : GsiSpec) : Bool :=
  !(g.name ∈ deletes && g.mode = .generated)

def GsiSpec.markedBy (deletes : List String) (g : GsiSpec) : GsiSpec :=
  if g.name ∈ deletes ∧ g.mode = .dualWrite then
    g.flagged false (some "GSI removal in progress")
  else g

def mergedSpecs (e : TableEntry) (deletes : List String) (creates : List GsiSpec) : List GsiSpec :=
  let kept := (e.gsis.entries.map Prod.snd).filter (GsiSpec.staysAfter deletes)
  (kept.map (GsiSpec.markedBy deletes) ++ creates).mergeSort fun a b => a.name ≤ b.name

/-- A table with the `gsi_specs` its entry was loaded from. -/
structure StoredTable extends TableState where
  specs : List GsiSpec
  loaded : entry.gsis = loadGsis specs

inductive StoredEvent where
  | update (req : UpdateTableRequest)
  | served (name : String) (serveable : Bool) (reason : Option String)
  | removed (name : String)
  | judged (verdict : GsiSpec → Bool × Option String)

def setSpecServeable (name : String) (serveable : Bool) (reason : Option String) (g : GsiSpec) :
    GsiSpec :=
  if g.name = name then g.flagged serveable reason else g

def GsiSpec.verdict (verdict : GsiSpec → Bool × Option String) (g : GsiSpec) : GsiSpec :=
  g.flagged (verdict g).1 (verdict g).2

/-- Accepted requests, what the workers of DualWrite indexes commit, and the verdicts of the
reconciler, which writes the loaded specs back. -/
inductive StoredStep (names : PgNames) (hex8 : String → String) (s : StoredTable) :
    StoredEvent → StoredTable → Prop
  | update {req : UpdateTableRequest} {s' : StoredTable} {creates : List GsiSpec} :
      updateTable names hex8 s.toTableState req = .ok (s'.toTableState, creates) →
      s'.specs = (if req.deletes = [] ∧ creates = [] then s.specs
        else mergedSpecs s.entry req.deletes creates) →
      StoredStep names hex8 s (.update req) s'
  | served {name : String} {serveable : Bool} {reason : Option String} {s' : StoredTable} :
      s'.toTableState = setServeable s.toTableState name serveable reason →
      s'.specs = s.specs.map (setSpecServeable name serveable reason) →
      StoredStep names hex8 s (.served name serveable reason) s'
  | removed {name : String} {g : GsiSpec} {s' : StoredTable} :
      s.entry.gsis.get name = some g → g.mode = .dualWrite →
      s'.toTableState = removeGsi s.toTableState name →
      s'.specs = s.specs.filter (fun g => g.name ≠ name) → StoredStep names hex8 s (.removed name) s'
  | judged {verdict : GsiSpec → Bool × Option String} {s' : StoredTable} :
      s'.toTableState = ⟨{ s.entry with gsis := s.entry.gsis.mapVals (GsiSpec.verdict verdict) },
        s.columns⟩ →
      s'.specs = (s.entry.gsis.entries.map Prod.snd).map (GsiSpec.verdict verdict) →
      StoredStep names hex8 s (.judged verdict) s'

section

variable {α : Type*} {κ : Type*} [LinearOrder κ]

/-- Sorting by a key keeps the elements of one key in their order. -/
theorem filter_mergeSort (key : α → κ) (k : κ) (l : List α) :
    ((l.mergeSort fun a b => key a ≤ key b).filter fun a => key a = k)
      = l.filter fun a => key a = k := by
  have htrans : ∀ a b c : α, (decide (key a ≤ key b)) = true → (decide (key b ≤ key c)) = true →
      (decide (key a ≤ key c)) = true := by
    intro a b c hab hbc
    exact decide_eq_true ((of_decide_eq_true hab).trans (of_decide_eq_true hbc))
  have htotal : ∀ a b : α, (decide (key a ≤ key b) || decide (key b ≤ key a)) = true := by
    intro a b
    simpa using le_total (key a) (key b)
  have hequal : (l.filter fun a => key a = k).Pairwise
      fun a b => decide (key a ≤ key b) = true := by
    refine pairwise_of_forall_mem_list fun a ha b hb => ?_
    have ha := (mem_filter.mp ha).2
    have hb := (mem_filter.mp hb).2
    simp only [decide_eq_true_eq] at ha hb ⊢
    exact (ha.trans hb.symm).le
  have hsub := (sublist_mergeSort htrans htotal hequal filter_sublist).filter
    fun a => decide (key a = k)
  rw [filter_filter] at hsub
  simp only [Bool.and_self] at hsub
  refine (hsub.eq_of_length ?_).symm
  exact ((mergeSort_perm l _).filter _).length_eq.symm

end

theorem loadGsis_get (specs : List GsiSpec) (name : String) :
    (loadGsis specs).get name = (specs.filter fun g => g.name = name).getLast? := by
  rw [loadGsis, OrderedMap.ofList, OrderedMap.get_insertAll, filter_map, List.getLast?_map,
    Option.map_map]
  have hself : (Prod.snd ∘ fun g : GsiSpec => (g.name, g)) = id := rfl
  rw [hself, Option.map_id, id]
  exact Option.or_none

theorem mem_of_loadGsis {name : String} {g : GsiSpec}
    (h : (loadGsis specs).get name = some g) : g ∈ specs ∧ g.name = name := by
  rw [loadGsis_get] at h
  obtain ⟨hmem, hname⟩ := mem_filter.mp (mem_of_getLast? h)
  exact ⟨hmem, of_decide_eq_true hname⟩

theorem loadGsis_values (name : String) :
    (((loadGsis specs).entries.map Prod.snd).filter fun g => g.name = name)
      = ((loadGsis specs).get name).toList := by
  have hkeyed : ∀ entry ∈ (loadGsis specs).entries, entry.2.name = entry.1 :=
    fun entry hentry => (mem_of_loadGsis (OrderedMap.get_of_mem hentry)).2
  rw [filter_map]
  have hfilter : ((loadGsis specs).entries.filter
      ((fun g : GsiSpec => decide (g.name = name)) ∘ Prod.snd))
        = (loadGsis specs).entries.filter fun entry => entry.1 = name := by
    refine filter_congr fun entry hentry => ?_
    rw [Function.comp_apply, hkeyed entry hentry]
  rw [hfilter, OrderedMap.filter_entries]
  cases (loadGsis specs).get name <;> rfl

theorem loadGsis_nodup (specs : List GsiSpec) :
    (((loadGsis specs).entries.map Prod.snd).map GsiSpec.name).Nodup := by
  have hkeyed : ((loadGsis specs).entries.map Prod.snd).map GsiSpec.name = (loadGsis specs).keys := by
    rw [map_map]
    refine map_congr_left fun entry hentry => ?_
    exact (mem_of_loadGsis (OrderedMap.get_of_mem hentry)).2
  rw [hkeyed]
  exact OrderedMap.keys_nodup _

theorem GsiSpec.markedBy_name (deletes : List String) (g : GsiSpec) :
    (g.markedBy deletes).name = g.name := by
  unfold GsiSpec.markedBy
  split <;> rfl

theorem setSpecServeable_name (name : String) (serveable : Bool) (reason : Option String)
    (g : GsiSpec) : (setSpecServeable name serveable reason g).name = g.name := by
  unfold setSpecServeable
  split <;> rfl

theorem mergedGsis_get_eq (deletes : List String) (name : String) :
    (mergedGsis e deletes creates).get name =
      ((creates.filter fun g => g.name = name).getLast?).or ((mergedGsis e deletes []).get name) := by
  change (OrderedMap.insertAll (mergedGsis e deletes [])
    (creates.map fun g => (g.name, g))).get name = _
  rw [OrderedMap.get_insertAll, filter_map, List.getLast?_map, Option.map_map]
  have hself : (Prod.snd ∘ fun g : GsiSpec => (g.name, g)) = id := rfl
  rw [hself, Option.map_id]
  rfl

theorem mergedGsis_nil_get (hkeyed : ∀ name g, e.gsis.get name = some g → g.name = name)
    (deletes : List String) (name : String) : (mergedGsis e deletes []).get name =
      ((e.gsis.get name).filter (GsiSpec.staysAfter deletes)).map (GsiSpec.markedBy deletes) := by
  cases hget : e.gsis.get name with
  | none =>
    cases hmerged : (mergedGsis e deletes []).get name with
    | none => rfl
    | some g =>
      rcases mergedGsis_get hmerged with hnew | ⟨g₀, hget₀, _⟩
      · cases hnew
      · cases hget.symm.trans hget₀
  | some g =>
    have hname := hkeyed name g hget
    by_cases hdel : name ∈ deletes
    · cases hmode : g.mode with
      | generated =>
        have hgone : g.staysAfter deletes = false := by simp [GsiSpec.staysAfter, hname, hdel, hmode]
        rw [Option.filter_some, if_neg (by rw [hgone]; decide), Option.map_none]
        cases hmerged : (mergedGsis e deletes []).get name with
        | none => rfl
        | some g' =>
          rcases mergedGsis_get hmerged with hnew | ⟨g₀, hget₀, hmode₀, _, hkept⟩
          · cases hnew
          · cases hget.symm.trans hget₀
            exact absurd hdel (hkept (hmode₀.trans hmode))
      | dualWrite =>
        have hstays : g.staysAfter deletes = true := by simp [GsiSpec.staysAfter, hmode]
        rw [mergedGsis_marked hget hdel hmode (forall_mem_nil _), Option.filter_some, if_pos hstays,
          Option.map_some, GsiSpec.markedBy, if_pos ⟨hname ▸ hdel, hmode⟩]
        rfl
    · have hstays : g.staysAfter deletes = true := by simp [GsiSpec.staysAfter, hname, hdel]
      rw [mergedGsis_keeps hget hdel (forall_mem_nil _), Option.filter_some, if_pos hstays, Option.map_some,
        GsiSpec.markedBy, if_neg fun h => hdel (hname ▸ h.1)]

theorem mergedGsis_eq_load (h : e.gsis = loadGsis specs)
    (deletes : List String) : mergedGsis e deletes creates = loadGsis
    (mergedSpecs e deletes creates) := by
  refine OrderedMap.ext_get fun name => ?_
  rw [mergedGsis_get_eq, loadGsis_get, mergedSpecs, filter_mergeSort GsiSpec.name name,
    filter_append, List.getLast?_append]
  congr 1
  rw [mergedGsis_nil_get (fun name g hg => (mem_of_loadGsis (h ▸ hg)).2), filter_map]
  have hname : ((fun g : GsiSpec => decide (g.name = name)) ∘ GsiSpec.markedBy deletes)
      = fun g : GsiSpec => decide (g.name = name) := by
    funext g
    rw [Function.comp_apply, GsiSpec.markedBy_name]
  rw [hname, filter_comm, h, loadGsis_values, List.getLast?_map]
  cases (loadGsis specs).get name with
  | none => rfl
  | some g => cases hstays : g.staysAfter deletes <;> simp [hstays]

/-- Every accepted request is a step of the stored table. -/
theorem updateTable_stored {s : StoredTable} {t : TableState}
    (h : updateTable names hex8 s.toTableState req = .ok (t, creates)) :
    ∃ s' : StoredTable, s'.toTableState = t ∧
      s'.specs = (if req.deletes = [] ∧ creates = [] then s.specs
        else mergedSpecs s.entry req.deletes creates) ∧
      StoredStep names hex8 s (.update req) s' := by
  obtain ⟨_, hentry, _⟩ := updateTable_ok h
  by_cases hnone : req.deletes = [] ∧ creates = []
  · have hgsis : t.entry.gsis = loadGsis s.specs := by
      rw [hentry, hnone.1, hnone.2, ← s.loaded]
      rfl
    exact ⟨⟨t, s.specs, hgsis⟩, rfl, (if_pos hnone).symm, .update h (if_pos hnone).symm⟩
  · have hgsis : t.entry.gsis = loadGsis (mergedSpecs s.entry req.deletes creates) := by
      rw [hentry]
      exact mergedGsis_eq_load s.loaded req.deletes
    exact ⟨⟨t, mergedSpecs s.entry req.deletes creates, hgsis⟩, rfl, (if_neg hnone).symm,
      .update h (if_neg hnone).symm⟩

end Rektifier
