import Rektifier.ColumnNames
import Rektifier.CreateValidationSpec

namespace Rektifier

open List

/-- The name PostgreSQL keeps of an unquoted identifier. -/
def foldedName (name : String) : String :=
  String.ofList (SqlIdent.clip pgIdentMax (SqlIdent.fold name.toList))

/-- The columns of CREATE TABLE, by the names PostgreSQL compares. -/
def tableColumns (plan : CreateTablePlan) : List String :=
  ("data" :: (emittedCols plan).map Prod.fst).map foldedName

/-- The base key names no attribute twice, and no attribute folds to the name of another or of the
JSONB column. -/
structure ColumnsApart (req : CreateTableRequest) : Prop where
  base : (req.keySchema.map KeySchemaElement.attributeName).Nodup
  data : ∀ ad ∈ req.attributeDefinitions, foldedName ad.attributeName ≠ "data"
  apart : (req.attributeDefinitions.map fun ad => foldedName ad.attributeName).Nodup

section

variable {req : CreateTableRequest} {plan : CreateTablePlan}
  (h : validateCreateTable req = .ok plan)
include h

theorem validateCreateTable_attrs_nodup :
    (req.attributeDefinitions.map AttributeDefinition.attributeName).Nodup := by
  obtain ⟨defs, hdefs, _⟩ := validateKeySchemaAndAttrs_ok (validateCreateTable_ok h).1
  exact (uniqueAttributeTypes_reads hdefs).1

theorem mem_emittedCols_iff_defined (attr : String) : attr ∈ (emittedCols plan).map Prod.fst ↔
    attr ∈ req.attributeDefinitions.map AttributeDefinition.attributeName := by
  obtain ⟨hkeys, hstructures, hgsis, hlsis⟩ := validateCreateTable_ok h
  obtain ⟨_, _, _, hdefined, _⟩ := validateKeySchemaAndAttrs_ok hkeys
  have hnodup := validateCreateTable_attrs_nodup h
  have hgsi := (validateGsiPlans_ok hnodup hgsis hstructures).1 attr
  have hlsi := (validateLsiStructures_ok hnodup hlsis).1 attr
  rw [hdefined, mem_emittedCols, CreateTableRequest.keyed, ← hgsi]
  simp only [mem_append, map_append, map_flatMap, mem_flatMap]
  by_cases hpk : attr = plan.pkAttr
  · simp [hpk]
  · rw [← hlsi hpk, or_comm (a := ∃ lsi ∈ req.lsis, _)]

theorem key_definedAs {c : String × KeyType} (hc : plan.Key c) :
    DefinedAs req.tableName req.attributeDefinitions c.1 c.2 := by
  obtain ⟨hkeys, hstructures, hgsis, hlsis⟩ := validateCreateTable_ok h
  obtain ⟨defs, hdefs, _, _, hbase⟩ := validateKeySchemaAndAttrs_ok hkeys
  have hnodup := validateCreateTable_attrs_nodup h
  rcases hc with hc | hc | ⟨g, hg, hc⟩
  · exact (uniqueAttributeTypes_reads hdefs).2.definedAs (hbase c hc)
  · obtain ⟨l, hl, rfl⟩ := mem_map.mp hc
    exact (validateLsiStructures_ok hnodup hlsis).2 l hl
  · exact (validateGsiPlans_ok hnodup hgsis hstructures).2 g hg c hc

theorem mem_emittedCols_iff_key {c : String × KeyType} : c ∈ emittedCols plan ↔ plan.Key c := by
  refine ⟨key_of_mem_emittedCols, fun hc => ?_⟩
  obtain ⟨c', hc', heq⟩ := mem_map.mp hc.emitted
  obtain ⟨⟨ad, had, hname⟩, htypes⟩ := key_definedAs h hc
  have hother := (key_definedAs h (key_of_mem_emittedCols hc')).2 ad had (hname.trans heq.symm)
  rw [heq, htypes ad had hname] at hother
  rwa [Prod.ext heq.symm (Except.ok.inj hother)]

theorem emittedCols_definedAs :
    ∀ c ∈ emittedCols plan, DefinedAs req.tableName req.attributeDefinitions c.1 c.2 :=
  fun _ hc => key_definedAs h (key_of_mem_emittedCols hc)

theorem keySchema_nodup_iff :
    (req.keySchema.map KeySchemaElement.attributeName).Nodup ↔
      ((emittedCols plan).map Prod.fst).Nodup := by
  obtain ⟨_, _, hfirst, _⟩ := validateKeySchemaAndAttrs_ok (validateCreateTable_ok h).1
  rw [← (keySchemaOf_attrs hfirst).nodup_iff, emittedCols_nodup_iff]
  cases plan.sk with
  | none => simp
  | some s => simp [eq_comm]

theorem tableColumns_nodup_iff : (tableColumns plan).Nodup ↔ ColumnsApart req := by
  have hfolded : foldedName "data" = "data" := by decide
  have hperm : (req.keySchema.map KeySchemaElement.attributeName).Nodup →
      (((emittedCols plan).map Prod.fst).map foldedName).Perm
        (req.attributeDefinitions.map fun ad => foldedName ad.attributeName) := by
    intro hbase
    have hnames := (perm_ext_iff_of_nodup ((keySchema_nodup_iff h).mp hbase)
      (validateCreateTable_attrs_nodup h)).mpr (mem_emittedCols_iff_defined h)
    have hmap := hnames.map foldedName
    rwa [map_map (g := foldedName) (f := AttributeDefinition.attributeName)] at hmap
  rw [tableColumns, map_cons, nodup_cons, hfolded]
  constructor
  · rintro ⟨hdata, hnodup⟩
    have hbase := (keySchema_nodup_iff h).mpr (List.Nodup.of_map foldedName hnodup)
    refine ⟨hbase, ?_, (hperm hbase).nodup_iff.mp hnodup⟩
    intro ad had heq
    exact hdata ((hperm hbase).mem_iff.mpr (mem_map.mpr ⟨ad, had, heq⟩))
  · rintro ⟨hbase, hdata, hapart⟩
    refine ⟨?_, (hperm hbase).nodup_iff.mpr hapart⟩
    intro hmem
    obtain ⟨ad, had, heq⟩ := mem_map.mp ((hperm hbase).mem_iff.mp hmem)
    exact hdata ad had heq

theorem createColumns_isSome_iff {printed : String → String} {schema : String}
    (hread : ∀ ad ∈ req.attributeDefinitions,
      ((pgNames printed schema).unquoted ad.attributeName).isSome) :
    (createColumns (pgNames printed schema) plan).isSome ↔ ColumnsApart req := by
  have hname : ∀ c ∈ emittedCols plan,
      (pgNames printed schema).unquoted c.1 = some (foldedName c.1) := by
    intro c hc
    obtain ⟨ad, had, heq⟩ := mem_map.mp
      ((mem_emittedCols_iff_defined h c.1).mp (mem_map_of_mem hc))
    obtain ⟨col, hcol⟩ := Option.isSome_iff_exists.mp (hread ad had)
    rw [heq] at hcol
    obtain ⟨v, hv, rfl⟩ := Option.map_eq_some_iff.mp hcol
    unfold SqlIdent.unquoted at hv
    split at hv
    next =>
      cases hv
      exact hcol
    next => cases hv
  have hfolded : foldedName "data" = "data" := by decide
  rw [createColumns_named hname, ← tableColumns_nodup_iff h, tableColumns, map_cons, hfolded,
    map_map]
  rfl

/-- Every column has the type its attribute is defined with; the names are apart, and PostgreSQL
accepts the columns where it can read them, exactly if the request keeps its attributes apart. -/
theorem create_columns_apart_iff (printed : String → String) (schema : String) :
    (∀ c ∈ emittedCols plan, DefinedAs req.tableName req.attributeDefinitions c.1 c.2) ∧
    ((tableColumns plan).Nodup ↔ ColumnsApart req) ∧
    ((∀ ad ∈ req.attributeDefinitions,
        ((pgNames printed schema).unquoted ad.attributeName).isSome = true) →
      ((createColumns (pgNames printed schema) plan).isSome = true ↔ ColumnsApart req)) :=
  ⟨emittedCols_definedAs h, tableColumns_nodup_iff h, createColumns_isSome_iff h⟩

end

def pairRequest (hash range : String) : CreateTableRequest :=
  { hashRequest hash with
    keySchema := [⟨hash, "HASH"⟩, ⟨range, "RANGE"⟩]
    attributeDefinitions := ([hash, range].dedup).map fun attr => ⟨attr, "S"⟩ }

def pairPlan (hash range : String) : CreateTablePlan :=
  ⟨"orders", hash, .s, some (range, .s), [], []⟩

theorem create_columns_apart_pair :
    validateCreateTable (pairRequest "id" "at") = .ok (pairPlan "id" "at") ∧
    ((tableColumns (pairPlan "id" "at")).Nodup ↔ ColumnsApart (pairRequest "id" "at")) := by
  have hplan : validateCreateTable (pairRequest "id" "at") = .ok (pairPlan "id" "at") := rfl
  exact ⟨hplan, (create_columns_apart_iff hplan id "public").2.1⟩

/-- One attribute for both keys, two spellings of one column, and the name of the JSONB column. -/
theorem duplicate_columns_accepted :
    validateCreateTable (pairRequest "id" "id") = .ok (pairPlan "id" "id") ∧
    tableColumns (pairPlan "id" "id") = ["data", "id", "id"] ∧
    validateCreateTable (pairRequest "Id" "id") = .ok (pairPlan "Id" "id") ∧
    tableColumns (pairPlan "Id" "id") = ["data", "id", "id"] ∧
    validateCreateTable (hashRequest "Data") = .ok (hashPlan "Data") ∧
    tableColumns (hashPlan "Data") = ["data", "data"] ∧
    createColumns (pgNames id "public") (pairPlan "id" "id") = none := by
  refine ⟨rfl, by decide, rfl, by decide, rfl, by decide, rfl⟩

end Rektifier
