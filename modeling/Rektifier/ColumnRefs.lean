import Rektifier.UpdateTableSpec

namespace Rektifier

open Fallible List

variable {name : String} {deletes : List String} {names : PgNames} {hex8 : String → String}
  {s s' : TableState} {req : UpdateTableRequest} {creates : List GsiSpec} {e e' : TableEntry}
  {columns columns' : Columns} {col : String}

def TableEntry.Indexes (e : TableEntry) (col : String) : Prop :=
  ∃ name g, e.gsis.get name = some g ∧ col ∈ g.columns

def TableEntry.References (e : TableEntry) (col : String) : Prop :=
  col ∈ e.fixedCols ∨ e.Indexes col

theorem mem_referencedColumns : col ∈ e.referencedColumns name ↔
    col ∈ e.fixedCols ∨ ∃ other g, other ≠ name ∧ e.gsis.get other = some g ∧ col ∈ g.columns := by
  rw [TableEntry.referencedColumns, mem_append, mem_flatMap]
  refine or_congr Iff.rfl ⟨?_, ?_⟩
  · rintro ⟨⟨other, g⟩, hmem, hcol⟩
    obtain ⟨hmem, hne⟩ := mem_filter.mp hmem
    exact ⟨other, g, by simpa using hne, OrderedMap.get_of_mem hmem, hcol⟩
  · rintro ⟨other, g, hne, hget, hcol⟩
    exact ⟨(other, g), mem_filter.mpr ⟨Entries.get_eq_some_mem hget, by simpa using hne⟩, hcol⟩

theorem dropUnreferenced_apply {g : GsiSpec} :
    dropUnreferenced e name g columns col
      = if col ∈ g.columns ∧ col ∉ e.referencedColumns name then none else columns col := by
  unfold dropUnreferenced
  generalize g.columns = cols
  induction cols generalizing columns with
  | nil => simp
  | cons c cols ih =>
    rw [foldl_cons, ih]
    by_cases hc : c ∈ e.referencedColumns name
    · by_cases heq : col = c
      · subst heq
        simp [hc]
      · simp [hc, heq]
    · by_cases heq : col = c
      · subst heq
        simp [hc]
      · simp [hc, heq]

theorem dropDeleted_isSome :
    (dropDeleted e deletes columns col).isSome ↔
      (columns col).isSome ∧ e.KeepsColumn deletes col := by
  constructor
  · intro h
    obtain ⟨info, hinfo⟩ := Option.isSome_iff_exists.mp h
    obtain ⟨hbefore, hkeeps⟩ := dropDeleted_some hinfo
    exact ⟨by rw [hbefore]; rfl, hkeeps⟩
  · rintro ⟨hcol, hkeeps⟩
    unfold dropDeleted
    induction deletes generalizing columns with
    | nil => exact hcol
    | cons name deletes ih =>
      rw [foldl_cons]
      refine ih ?_ fun name' hname' => hkeeps name' (mem_cons_of_mem _ hname')
      rcases hget : e.gsis.get name with _ | g
      · exact hcol
      rcases hmode : g.mode with _ | _
      · simp only [hmode]
        have hreferenced := hkeeps name mem_cons_self g hget hmode
        rw [dropUnreferenced_apply, if_neg fun h => h.2 (hreferenced h.1)]
        exact hcol
      · simp only [hmode]
        exact hcol

/-- Named in the DDL texts as it is, and not the item's column. -/
def PlainKey (names : PgNames) (col : String) : Prop :=
  names.unquoted col = some col ∧ col ≠ "data"

theorem addColumn_isSome {c : DualWriteCol} (hplain : names.unquoted c.col = some c.col)
    (h : addColumn names columns c = some columns') :
    (columns' col).isSome ↔ (columns col).isSome ∨ c.col = col := by
  unfold addColumn at h
  rw [hplain, Option.bind_eq_bind, Option.bind_some] at h
  split at h
  next hthere =>
    cases h
    exact ⟨.inl, fun h => h.elim id fun heq => heq ▸ hthere⟩
  next =>
    cases h
    by_cases heq : col = c.col
    · simp [heq]
    · simp [Function.update_of_ne heq, Ne.symm heq]

theorem addColumns_isSome (hplain : ∀ g ∈ creates, ∀ col ∈ g.columns, PlainKey names col)
    (h : creates.foldlM (fun columns g => addColumns names g columns) columns = some columns') :
    (columns' col).isSome ↔
      (columns col).isSome ∨ ∃ g ∈ creates, col ∈ g.columns := by
  refine foldlM_collects (fun columns : Columns => (columns col).isSome = true)
    (fun g : GsiSpec => col ∈ g.columns) ?_ h
  intro columns₀ g hg columns₁ hadd
  have hcols := foldlM_collects (fun columns : Columns => (columns col).isSome = true)
    (fun c : DualWriteCol => c.col = col) ?_ hadd
  · rw [hcols, GsiSpec.columns, mem_map]
  · intro columns₂ c hc columns₃ hstep
    exact addColumn_isSome (hplain g hg c.col (mem_map_of_mem hc)).1 hstep

/-- A deleted DualWrite index stays until its removal is finished. -/
theorem mergedGsis_marked {g : GsiSpec}
    (hget : e.gsis.get name = some g) (hdel : name ∈ deletes) (hdual : g.mode = .dualWrite)
    (hnew : ∀ g' ∈ creates, g'.name ∉ e.gsis.keys) :
    (mergedGsis e deletes creates).get name = some { g with
      serveable := false, unserveableReason := some "GSI removal in progress" } := by
  unfold mergedGsis
  rw [OrderedMap.get_insertAll_of_not_mem (not_mem_created hget hnew)]
  obtain ⟨v, hv, hgot⟩ := OrderedMap.get_insertAll_of_mem
    (e.gsis.eraseAll (deletes.filter fun name =>
      (e.gsis.get name).any fun g => g.mode = .generated)) (mem_map_of_mem (mem_marked hget hdel hdual))
  obtain ⟨name', _, heq⟩ := mem_filterMap.mp hv
  obtain ⟨g₀, hg₀, heq⟩ := Option.map_eq_some_iff.mp heq
  obtain ⟨rfl, rfl⟩ := Prod.mk.inj heq
  cases hget.symm.trans hg₀
  exact hgot

theorem mergedGsis_indexes (hnew : ∀ g ∈ creates, g.name ∉ e.gsis.keys)
    (hnodup : (creates.map GsiSpec.name).Nodup) :
    (∃ name g, (mergedGsis e deletes creates).get name = some g ∧ col ∈ g.columns) ↔
      (∃ g ∈ creates, col ∈ g.columns) ∨ ∃ name g, e.gsis.get name = some g ∧
        (g.mode = .generated → name ∉ deletes) ∧ col ∈ g.columns := by
  constructor
  · rintro ⟨name, g, hget, hcol⟩
    rcases mergedGsis_get hget with hmem | ⟨g₀, hget₀, hmode, hcols, hkept⟩
    · exact .inl ⟨g, hmem, hcol⟩
    · exact .inr ⟨name, g₀, hget₀, fun hgen => hkept (hmode.trans hgen), hcols ▸ hcol⟩
  · rintro (⟨g, hg, hcol⟩ | ⟨name, g, hget, hkept, hcol⟩)
    · have hkey : g.name ∈ (creates.map fun g => (g.name, g)).map Prod.fst := by
        rw [map_map]
        exact mem_map_of_mem hg
      obtain ⟨v, hv, hgot⟩ := OrderedMap.get_insertAll_of_mem _ hkey
      obtain ⟨g', hg', heq⟩ := mem_map.mp hv
      obtain ⟨hname, rfl⟩ := Prod.mk.inj heq
      have hsame : g' = g := inj_on_of_nodup_map hnodup hg' hg hname
      exact ⟨g.name, g', hgot, hsame ▸ hcol⟩
    · by_cases hdel : name ∈ deletes
      · cases hmode : g.mode with
        | generated => exact absurd hdel (hkept hmode)
        | dualWrite => exact ⟨name, _, mergedGsis_marked hget hdel hmode hnew, hcol⟩
      · exact ⟨name, g, mergedGsis_keeps hget hdel hnew, hcol⟩

def GlobalSecondaryIndex.keyAttrs (gsi : GlobalSecondaryIndex) : List String :=
  (keySchemaAttr "HASH" gsi).toList ++ (keySchemaAttr "RANGE" gsi).toList

theorem plannedSpec_columns {table pgTable basePk : String} {gsi : GlobalSecondaryIndex}
    {ads : Option (List AttributeDefinition)} {baseSk : Option String} {existing : List String}
    {plan : GsiPlan} {mode : GsiMode} {serveable : Bool} {reason : Option String}
    (h : validateUpdateTableGsiCreate table gsi ads basePk baseSk existing = .ok plan) :
    (plannedSpec hex8 pgTable plan mode serveable reason).columns = gsi.keyAttrs := by
  obtain ⟨_, _, hhash, hrange, _⟩ := validateUpdateTableGsiCreate_ok h
  rw [GlobalSecondaryIndex.keyAttrs, hhash, hrange]
  rcases hs : plan.sort with _ | sort
  · simp [plannedSpec, GsiSpec.columns, GsiSpec.cols, hs]
  · simp [plannedSpec, GsiSpec.columns, GsiSpec.cols, hs]

theorem validateCreates_names (h : validateCreates hex8 e req = .ok creates) :
    creates.map GsiSpec.name = req.creates.map GlobalSecondaryIndex.indexName := by
  refine map_eq_of_mapM_ok h fun gsi g hg => ?_
  obtain ⟨plan, hplan, hg⟩ := bind_ok hg
  cases hg
  exact (validateUpdateTableGsiCreate_ok hplan).2.1

theorem validateCreates_keys (h : validateCreates hex8 e req = .ok creates) :
    creates.map GsiSpec.columns = req.creates.map GlobalSecondaryIndex.keyAttrs := by
  refine map_eq_of_mapM_ok h fun gsi g hg => ?_
  obtain ⟨plan, hplan, hg⟩ := bind_ok hg
  cases hg
  exact plannedSpec_columns hplan

def UpdateTableRequest.Declares (req : UpdateTableRequest) (col : String) : Prop :=
  ∃ gsi ∈ req.creates, col ∈ gsi.keyAttrs

theorem validateCreates_declares (h : validateCreates hex8 e req = .ok creates) :
    (∃ g ∈ creates, col ∈ g.columns) ↔ req.Declares col := by
  have hkeys : col ∈ (creates.map GsiSpec.columns).flatten ↔
      col ∈ (req.creates.map GlobalSecondaryIndex.keyAttrs).flatten := by
    rw [validateCreates_keys h]
  simpa [UpdateTableRequest.Declares] using hkeys

end Rektifier
