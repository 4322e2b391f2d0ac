import Rektifier.CreateValidation
import Rektifier.UpdateTableSpec

namespace Rektifier

open Fallible List

variable {gsi : GlobalSecondaryIndex} {seen : List String}

/-- Defined, and with this type only. -/
def DefinedAs (table : String) (ads : List AttributeDefinition) (attr : String) (t : KeyType) :
    Prop :=
  (∃ ad ∈ ads, ad.attributeName = attr) ∧
    ∀ ad ∈ ads, ad.attributeName = attr → parseAttributeType table attr ad.attributeType = .ok t

/-- What the definitions add to the types known so far. -/
def ReadsDefs (table : String) (defs : OrderedMap String KeyType) (ads : List AttributeDefinition)
    (defs' : OrderedMap String KeyType) : Prop :=
  (∀ ad ∈ ads, ∃ t, parseAttributeType table ad.attributeName ad.attributeType = .ok t ∧
    defs'.get ad.attributeName = some t) ∧
  ∀ attr ∉ ads.map AttributeDefinition.attributeName, defs'.get attr = defs.get attr

def hashFirst (ks : List KeySchemaElement) : List KeySchemaElement :=
  ks.filter (fun kse => kse.keyType = "HASH") ++ ks.filter fun kse => kse.keyType ≠ "HASH"

theorem hashFirst_perm (ks : List KeySchemaElement) : (hashFirst ks).Perm ks := by
  have h := filter_append_perm (fun kse : KeySchemaElement => decide (kse.keyType = "HASH")) ks
  simpa only [hashFirst, decide_not] using h

theorem keySchemaOf_attrs {ks : List KeySchemaElement} {hash : String} {range : Option String}
    (h : hashFirst ks = keySchemaOf hash range) :
    (hash :: range.toList).Perm (ks.map KeySchemaElement.attributeName) := by
  have hperm := (hashFirst_perm ks).map KeySchemaElement.attributeName
  rw [h] at hperm
  cases range <;> exact hperm

section

variable {table attr subject : String} {ad : AttributeDefinition} {ads : List AttributeDefinition}
  {defs defs' : OrderedMap String KeyType} {ks : List KeySchemaElement} {t : KeyType}

theorem ReadsDefs.cons (hfirst : ad.attributeName ∉ ads.map AttributeDefinition.attributeName)
    (ht : parseAttributeType table ad.attributeName ad.attributeType = .ok t)
    (h : ReadsDefs table (defs.insert ad.attributeName t) ads defs') :
    ReadsDefs table defs (ad :: ads) defs' := by
  obtain ⟨hdefined, hother⟩ := h
  refine ⟨forall_mem_cons.mpr ⟨⟨t, ht, ?_⟩, hdefined⟩, ?_⟩
  · rw [hother _ hfirst, OrderedMap.get_insert_self]
  · intro attr hattr
    rw [map_cons, mem_cons, not_or] at hattr
    rw [hother _ hattr.2, OrderedMap.get_insert_of_ne _ hattr.1]

theorem ReadsDefs.definedAs (h : ReadsDefs table OrderedMap.empty ads defs)
    (hget : defs.get attr = some t) : DefinedAs table ads attr t := by
  obtain ⟨hdefined, hother⟩ := h
  refine ⟨?_, ?_⟩
  · by_contra hnone
    have hmem : attr ∉ ads.map AttributeDefinition.attributeName := by
      intro hmem
      obtain ⟨ad, had, heq⟩ := mem_map.mp hmem
      exact hnone ⟨ad, had, heq⟩
    rw [hother attr hmem] at hget
    cases hget
  · rintro ad had rfl
    obtain ⟨t', ht', hget'⟩ := hdefined ad had
    cases hget.symm.trans hget'
    exact ht'

theorem attributeTypes_reads (hnodup : (ads.map AttributeDefinition.attributeName).Nodup)
    (h : attributeTypes table ads = .ok defs) : ReadsDefs table OrderedMap.empty ads defs := by
  refine foldlM_ok_induction
    (R := fun defs ads defs' => (ads.map AttributeDefinition.attributeName).Nodup →
      ReadsDefs table defs ads defs') ?_ ?_ h hnodup
  · exact fun defs _ => ⟨nofun, fun _ _ => rfl⟩
  · intro defs ad ads defs₁ defs' hstep ih hnodup
    obtain ⟨hfirst, hlater⟩ := nodup_cons.mp hnodup
    obtain ⟨t, ht, hstep⟩ := bind_ok hstep
    cases hstep
    exact (ih hlater).cons hfirst ht

theorem uniqueAttributeTypes_reads (h : uniqueAttributeTypes table ads = .ok defs) :
    (ads.map AttributeDefinition.attributeName).Nodup ∧
      ReadsDefs table OrderedMap.empty ads defs := by
  have hall := foldlM_ok_induction
    (R := fun defs ads defs' => (ads.map AttributeDefinition.attributeName).Nodup ∧
      (∀ ad ∈ ads, defs.get ad.attributeName = none) ∧ ReadsDefs table defs ads defs') ?_ ?_ h
  · exact ⟨hall.1, hall.2.2⟩
  · exact fun defs => ⟨nodup_nil, nofun, nofun, fun _ _ => rfl⟩
  · rintro defs ad ads defs₁ defs' hstep ⟨hnodup, hnew, hreads⟩
    obtain ⟨t, ht, hstep⟩ := bind_ok hstep
    obtain ⟨_, hreject, hstep⟩ := bind_ok hstep
    cases hstep
    have hne : ∀ other ∈ ads, other.attributeName ≠ ad.attributeName := by
      intro other hmem heq
      have hnone := hnew other hmem
      rw [heq, OrderedMap.get_insert_self] at hnone
      cases hnone
    have hfirst : ad.attributeName ∉ ads.map AttributeDefinition.attributeName := by
      intro hmem
      obtain ⟨other, hother, heq⟩ := mem_map.mp hmem
      exact hne other hother heq
    refine ⟨nodup_cons.mpr ⟨hfirst, hnodup⟩, forall_mem_cons.mpr ⟨?_, ?_⟩,
      hreads.cons hfirst ht⟩
    · simpa using rejectIf_ok hreject
    · intro other hmem
      rw [← OrderedMap.get_insert_of_ne defs (hne other hmem) t]
      exact hnew other hmem

theorem splitKeySchema_hashFirst {hash range : Option String}
    (h : splitKeySchema subject ks = .ok (hash, range)) :
    hashFirst ks = (hash.map fun attr => ⟨attr, "HASH"⟩).toList ++
      (range.map fun attr => ⟨attr, "RANGE"⟩).toList := by
  have hfold := foldlM_ok_induction (R := fun found ks found' =>
    (found.1.map fun attr => (⟨attr, "HASH"⟩ : KeySchemaElement)).toList ++
        ks.filter (fun kse => kse.keyType = "HASH") =
      (found'.1.map fun attr => ⟨attr, "HASH"⟩).toList ∧
    (found.2.map fun attr => (⟨attr, "RANGE"⟩ : KeySchemaElement)).toList ++
        ks.filter (fun kse => kse.keyType ≠ "HASH") =
      (found'.2.map fun attr => ⟨attr, "RANGE"⟩).toList) ?_ ?_ h
  · obtain ⟨hhash, hrange⟩ := hfold
    rw [← hhash, ← hrange]
    rfl
  · intro found
    simp
  · rintro found ⟨attr, keyType⟩ ks next found' hstep ⟨hhash, hrange⟩
    rw [← hhash, ← hrange]
    dsimp only at hstep
    split at hstep
    next =>
      obtain ⟨_, hreject, hstep⟩ := bind_ok hstep
      have hnone : found.1 = none := by simpa using rejectIf_ok hreject
      cases hstep
      simp [hnone]
    next =>
      obtain ⟨_, hreject, hstep⟩ := bind_ok hstep
      have hnone : found.2 = none := by simpa using rejectIf_ok hreject
      cases hstep
      simp [hnone]
    next => cases hstep

theorem requireAttr_ok {found : Option String} {msg : String}
    (h : requireAttr found msg = .ok attr) : found = some attr := by
  cases found with
  | none => cases h
  | some a =>
    cases h
    rfl

theorem lookupDefined_ok {kind index role : String} {c : String × KeyType}
    (h : lookupDefined table kind index role attr defs = .ok c) :
    c.1 = attr ∧ defs.get c.1 = some c.2 := by
  unfold lookupDefined at h
  split at h
  next hget =>
    cases h
    exact ⟨rfl, hget⟩
  next => cases h

/-- No role twice, and no role but the two. -/
theorem checkKeySchema_ok {index : String} {sawHash sawRange : Bool}
    (h : checkKeySchema table index sawHash sawRange ks = .ok ()) :
    (ks.map KeySchemaElement.keyType).Nodup ∧
    ∀ kse ∈ ks, (kse.keyType = "HASH" ∧ sawHash = false) ∨
      (kse.keyType = "RANGE" ∧ sawRange = false) := by
  induction ks generalizing sawHash sawRange with
  | nil => exact ⟨nodup_nil, nofun⟩
  | cons kse ks ih =>
    unfold checkKeySchema at h
    split at h
    next hrole =>
      split at h
      next => cases h
      next hsaw =>
        obtain ⟨hnodup, hroles⟩ := ih h
        refine ⟨nodup_cons.mpr ⟨?_, hnodup⟩, forall_mem_cons.mpr ⟨?_, ?_⟩⟩
        · intro hmem
          obtain ⟨other, hother, heq⟩ := mem_map.mp hmem
          have hcase := hroles other hother
          rw [heq, hrole] at hcase
          simp at hcase
        · exact .inl ⟨hrole, by simpa using hsaw⟩
        · intro other hother
          have hcase := hroles other hother
          simp only [Bool.true_eq_false, and_false, false_or] at hcase
          exact .inr hcase
    next hrole =>
      split at h
      next => cases h
      next hsaw =>
        obtain ⟨hnodup, hroles⟩ := ih h
        refine ⟨nodup_cons.mpr ⟨?_, hnodup⟩, forall_mem_cons.mpr ⟨?_, ?_⟩⟩
        · intro hmem
          obtain ⟨other, hother, heq⟩ := mem_map.mp hmem
          have hcase := hroles other hother
          rw [heq, hrole] at hcase
          simp at hcase
        · exact .inr ⟨hrole, by simpa using hsaw⟩
        · intro other hother
          have hcase := hroles other hother
          simp only [Bool.true_eq_false, and_false, or_false] at hcase
          exact .inl hcase
    next => cases h

theorem filter_role {role : String}
    (hroles : (gsi.keySchema.map KeySchemaElement.keyType).Nodup) :
    gsi.keySchema.filter (fun kse => kse.keyType = role) =
      ((keySchemaAttr role gsi).map fun attr => ⟨attr, role⟩).toList := by
  have hattr : ∀ kse ∈ gsi.keySchema, kse.keyType = role →
      gsi.keySchema.filter (fun other => other.keyType = role) = [kse] := by
    intro kse hkse hrole
    have hnodup := (List.Nodup.of_map _ hroles).filter fun other => other.keyType = role
    refine perm_singleton.mp ((perm_ext_iff_of_nodup hnodup (nodup_singleton _)).mpr ?_)
    intro other
    rw [mem_filter, mem_singleton, decide_eq_true_eq]
    constructor
    · rintro ⟨hmem, hsame⟩
      exact inj_on_of_nodup_map hroles hmem hkse (hsame.trans hrole.symm)
    · rintro rfl
      exact ⟨hkse, hrole⟩
  unfold keySchemaAttr
  cases hfound : gsi.keySchema.reverse.find? fun kse => kse.keyType = role with
  | none =>
    refine filter_eq_nil_iff.mpr fun kse hkse => ?_
    exact List.find?_eq_none.mp hfound kse (mem_reverse.mpr hkse)
  | some kse =>
    have hrole : kse.keyType = role := by simpa using List.find?_some hfound
    rw [hattr kse (mem_reverse.mp (mem_of_find?_eq_some hfound)) hrole, ← hrole]
    rfl

theorem validateGsiKeySchema_hashFirst {hash : String}
    (h : validateGsiKeySchema table gsi = .ok ()) (hhash : keySchemaAttr "HASH" gsi = some hash) :
    hashFirst gsi.keySchema = keySchemaOf hash (keySchemaAttr "RANGE" gsi) := by
  unfold validateGsiKeySchema at h
  split at h
  next => cases h
  split at h
  next => cases h
  obtain ⟨hnodup, hroles⟩ := checkKeySchema_ok h
  have hrange : gsi.keySchema.filter (fun kse => kse.keyType ≠ "HASH") =
      gsi.keySchema.filter fun kse => kse.keyType = "RANGE" := by
    refine filter_congr fun kse hkse => ?_
    rcases hroles kse hkse with ⟨hrole, _⟩ | ⟨hrole, _⟩ <;> simp [hrole]
  rw [hashFirst, hrange, filter_role hnodup, filter_role hnodup, hhash]
  rfl

end

theorem distinct_cons {name : String} {names : List String} (hname : name ∉ seen)
    (h : names.Nodup ∧ ∀ n ∈ names, n ∉ name :: seen) :
    (name :: names).Nodup ∧ ∀ n ∈ name :: names, n ∉ seen := by
  obtain ⟨hnodup, hnew⟩ := h
  refine ⟨nodup_cons.mpr ⟨fun hmem => hnew _ hmem mem_cons_self, hnodup⟩, ?_⟩
  refine forall_mem_cons.mpr ⟨hname, fun n hn hmem => ?_⟩
  exact hnew n hn (mem_cons_of_mem _ hmem)

theorem validateGsiStructures_ok {table : String}
    {gsis : List GlobalSecondaryIndex} (h : validateGsiStructures table seen gsis = .ok ()) :
    ((gsis.map GlobalSecondaryIndex.indexName).Nodup ∧
      ∀ name ∈ gsis.map GlobalSecondaryIndex.indexName, name ∉ seen) ∧
    ∀ gsi ∈ gsis, validateGsiKeySchema table gsi = .ok () := by
  induction gsis generalizing seen with
  | nil => simp
  | cons gsi rest ih =>
    obtain ⟨_, _, h⟩ := bind_ok h
    obtain ⟨_, hseen, h⟩ := bind_ok h
    obtain ⟨_, hkeys, h⟩ := bind_ok h
    obtain ⟨hnames, hrest⟩ := ih h
    exact ⟨distinct_cons (rejectIf_ok hseen) hnames, forall_mem_cons.mpr ⟨hkeys, hrest⟩⟩

/-- The base key is the listed one, and the definitions are those of the key attributes. -/
theorem validateKeySchemaAndAttrs_ok {req : CreateTableRequest} {pk : String × KeyType}
    {sk : Option (String × KeyType)} (h : validateKeySchemaAndAttrs req = .ok (pk, sk)) :
    ∃ defs, uniqueAttributeTypes req.tableName req.attributeDefinitions = .ok defs ∧
      hashFirst req.keySchema = keySchemaOf pk.1 (sk.map Prod.fst) ∧
      (∀ attr, attr ∈ req.attributeDefinitions.map AttributeDefinition.attributeName ↔
        attr ∈ req.keyed pk.1 (sk.map Prod.fst)) ∧
      ∀ c ∈ pk :: sk.toList, defs.get c.1 = some c.2 := by
  obtain ⟨⟨hash, range⟩, hsplit, h⟩ := bind_ok h
  obtain ⟨attr, hattr, h⟩ := bind_ok h
  obtain ⟨defs, hdefs, h⟩ := bind_ok h
  obtain ⟨typed, htyped, h⟩ := bind_ok h
  obtain ⟨_, hunused, h⟩ := bind_ok h
  cases h
  cases requireAttr_ok hattr
  have hkeyed : typed.map Prod.fst = req.keyed attr range := by
    rw [← map_id (req.keyed attr range)]
    refine map_eq_of_mapM_ok htyped ?_
    intro a c hc
    split at hc
    · cases hc
      rfl
    · cases hc
  have hdefined : ∀ a ∈ req.keyed attr range, defs.get a = some ((defs.get a).getD .s) := by
    intro a ha
    rw [← hkeyed] at ha
    obtain ⟨c, hc, rfl⟩ := mem_map.mp ha
    obtain ⟨b, _, hb⟩ := mem_of_mapM_ok htyped c hc
    split at hb
    next t ht =>
      cases hb
      rw [ht, Option.getD_some]
    next => cases hb
  have hrange : (range.map fun a => (a, (defs.get a).getD .s)).map Prod.fst = range := by
    cases range <;> rfl
  refine ⟨defs, hdefs, ?_, ?_, ?_⟩
  · rw [hrange]
    exact splitKeySchema_hashFirst hsplit
  · rw [hrange]
    intro a
    have hused := rejectIf_ok hunused
    rw [ne_eq, not_not, filter_eq_nil_iff] at hused
    constructor
    · intro ha
      have hmem := hused a ha
      rw [decide_eq_true_eq, not_not, hkeyed] at hmem
      exact hmem
    · intro ha
      obtain ⟨⟨ad, had, rfl⟩, _⟩ :=
        (uniqueAttributeTypes_reads hdefs).2.definedAs (hdefined a ha)
      exact mem_map_of_mem had
  · have hbase : ∀ a ∈ attr :: range.toList, a ∈ req.keyed attr range := fun a ha =>
      mem_append_left _ ha
    refine forall_mem_cons.mpr ⟨hdefined attr (hbase attr mem_cons_self), ?_⟩
    intro c hc
    obtain ⟨a, ha, rfl⟩ := Option.map_eq_some_iff.mp (Option.mem_toList.mp hc)
    exact hdefined a (hbase a (mem_cons_of_mem _ (Option.mem_toList.mpr ha)))

theorem validateGsiPlan_ok {table pk : String} {defs : OrderedMap String KeyType}
    {sk : Option String} {plan : GsiPlan}
    (h : validateGsiPlan table defs pk sk gsi = .ok plan) :
    plan.name = gsi.indexName ∧ keySchemaAttr "HASH" gsi = some plan.partition.1 ∧
      keySchemaAttr "RANGE" gsi = plan.sort.map Prod.fst ∧
      ∀ c ∈ plan.partition :: plan.sort.toList, defs.get c.1 = some c.2 := by
  obtain ⟨hash, hhash, h⟩ := bind_ok h
  obtain ⟨partition, hpartition, h⟩ := bind_ok h
  obtain ⟨sort, hsort, h⟩ := bind_ok h
  obtain ⟨_, _, h⟩ := bind_ok h
  obtain ⟨_, _, h⟩ := bind_ok h
  obtain ⟨_, _, h⟩ := bind_ok h
  cases h
  obtain ⟨rfl, hget⟩ := lookupDefined_ok hpartition
  refine ⟨rfl, requireAttr_ok hhash, ?_, forall_mem_cons.mpr ⟨hget, ?_⟩⟩
  · cases hrange : keySchemaAttr "RANGE" gsi with
    | none =>
      rw [hrange] at hsort
      cases hsort
      rfl
    | some attr =>
      rw [hrange] at hsort
      obtain ⟨c, hc, rfl⟩ := map_ok_iff.mp hsort
      rw [Option.map_some, (lookupDefined_ok hc).1]
  · intro c hc
    cases hrange : keySchemaAttr "RANGE" gsi with
    | none =>
      rw [hrange] at hsort
      cases hsort
      cases hc
    | some attr =>
      rw [hrange] at hsort
      obtain ⟨c', hc', rfl⟩ := map_ok_iff.mp hsort
      cases mem_singleton.mp hc
      exact (lookupDefined_ok hc').2

/-- Its sort attribute is added to the base partition key. -/
def LsiPlanned (defs : OrderedMap String KeyType) (pk : String) (lsi : LocalSecondaryIndex)
    (plan : String × String × KeyType) : Prop :=
  plan.1 = lsi.indexName ∧ hashFirst lsi.keySchema = keySchemaOf pk (some plan.2.1) ∧
    defs.get plan.2.1 = some plan.2.2

def GsiPlanned (defs : OrderedMap String KeyType) (gsi : GlobalSecondaryIndex) (plan : GsiPlan) :
    Prop :=
  plan.name = gsi.indexName ∧
    hashFirst gsi.keySchema = keySchemaOf plan.partition.1 (plan.sort.map Prod.fst) ∧
    ∀ c ∈ plan.partition :: plan.sort.toList, defs.get c.1 = some c.2

theorem validateLsiPlans_ok {table pk sk : String} {defs : OrderedMap String KeyType}
    {taken : List String} {lsis : List LocalSecondaryIndex}
    {plans : List (String × String × KeyType)}
    (h : validateLsiPlans table defs pk sk seen taken lsis = .ok plans) :
    ((plans.map Prod.fst).Nodup ∧ ∀ name ∈ plans.map Prod.fst, name ∉ seen) ∧
      List.Forall₂ (LsiPlanned defs pk) lsis plans := by
  induction lsis generalizing seen taken plans with
  | nil =>
    cases h
    simp
  | cons lsi rest ih =>
    obtain ⟨_, _, h⟩ := bind_ok h
    obtain ⟨_, hseen, h⟩ := bind_ok h
    obtain ⟨⟨hash, range⟩, hshape, h⟩ := bind_ok h
    obtain ⟨_, hpk, h⟩ := bind_ok h
    obtain ⟨_, _, h⟩ := bind_ok h
    obtain ⟨_, _, h⟩ := bind_ok h
    obtain ⟨sort, hsort, h⟩ := bind_ok h
    obtain ⟨_, _, h⟩ := bind_ok h
    obtain ⟨plans', hplans, h⟩ := bind_ok h
    cases h
    obtain ⟨hnames, hrest⟩ := ih hplans
    obtain ⟨rfl, hget⟩ := lookupDefined_ok hsort
    have hhash : hash = pk := by simpa using rejectIf_ok hpk
    refine ⟨distinct_cons (rejectIf_ok hseen) hnames, .cons ⟨rfl, ?_, hget⟩ hrest⟩
    obtain ⟨_, _, hshape⟩ := bind_ok hshape
    obtain ⟨⟨hash', range'⟩, hsplit, hshape⟩ := bind_ok hshape
    obtain ⟨_, hhash', hshape⟩ := bind_ok hshape
    obtain ⟨_, hrange', hshape⟩ := bind_ok hshape
    cases hshape
    cases requireAttr_ok hhash'
    cases requireAttr_ok hrange'
    rw [← hhash]
    exact splitKeySchema_hashFirst hsplit

section

variable {req : CreateTableRequest} {pk : String} {sk : Option String} {gsis : List GsiPlan}
  {lsis : List (String × String × KeyType)}

def PlannedTypes (req : CreateTableRequest) (defs : OrderedMap String KeyType) : Prop :=
  (req.attributeDefinitions.map AttributeDefinition.attributeName).Nodup →
    ∀ attr t, defs.get attr = some t → DefinedAs req.tableName req.attributeDefinitions attr t

theorem attributeTypes_planned {defs : OrderedMap String KeyType}
    (h : attributeTypes req.tableName req.attributeDefinitions = .ok defs) :
    PlannedTypes req defs :=
  fun hnodup _ _ hget => (attributeTypes_reads hnodup h).definedAs hget

theorem validateLsiStructures_planned (h : validateLsiStructures req pk sk = .ok lsis) :
    (lsis.map Prod.fst).Nodup ∧
      ∃ defs, PlannedTypes req defs ∧ List.Forall₂ (LsiPlanned defs pk) req.lsis lsis := by
  unfold validateLsiStructures at h
  split at h
  next hnone =>
    cases h
    exact ⟨nodup_nil, .empty, fun _ _ _ => nofun, hnone ▸ .nil⟩
  next =>
    obtain ⟨_, _, h⟩ := bind_ok h
    obtain ⟨_, _, h⟩ := bind_ok h
    obtain ⟨defs, hdefs, h⟩ := bind_ok h
    obtain ⟨hnames, hplans⟩ := validateLsiPlans_ok h
    exact ⟨hnames.1, defs, attributeTypes_planned hdefs, hplans⟩

theorem validateGsiPlans_planned (h : validateGsiPlans req pk sk = .ok gsis)
    (hstructures : validateGsiStructures req.tableName [] req.gsis = .ok ()) :
    ∃ defs, PlannedTypes req defs ∧ List.Forall₂ (GsiPlanned defs) req.gsis gsis := by
  unfold validateGsiPlans at h
  split at h
  next hnone =>
    cases h
    exact ⟨.empty, fun _ _ _ => nofun, hnone ▸ .nil⟩
  next =>
    obtain ⟨defs, hdefs, h⟩ := bind_ok h
    refine ⟨defs, attributeTypes_planned hdefs, ?_⟩
    have hplans := forall₂_of_mapM_ok h
    refine forall₂_iff_zip.mpr ⟨hplans.length_eq, fun {gsi plan} hzip => ?_⟩
    obtain ⟨hname, hhash, hrange, htypes⟩ :=
      validateGsiPlan_ok ((forall₂_iff_zip.mp hplans).2 hzip)
    have hkeys := (validateGsiStructures_ok hstructures).2 gsi (of_mem_zip hzip).1
    refine ⟨hname, ?_, htypes⟩
    rw [validateGsiKeySchema_hashFirst hkeys hhash, hrange]

theorem validateGsiPlans_names (h : validateGsiPlans req pk sk = .ok gsis)
    (hstructures : validateGsiStructures req.tableName [] req.gsis = .ok ()) :
    gsis.map GsiPlan.name = req.gsis.map GlobalSecondaryIndex.indexName := by
  obtain ⟨_, _, hplans⟩ := validateGsiPlans_planned h hstructures
  exact map_eq_of_forall₂ hplans fun _ _ hplan => hplan.1

theorem validateLsiStructures_indexNames (h : validateLsiStructures req pk sk = .ok lsis) :
    lsis.map Prod.fst = req.lsis.map LocalSecondaryIndex.indexName := by
  obtain ⟨_, _, _, hplans⟩ := validateLsiStructures_planned h
  exact map_eq_of_forall₂ hplans fun _ _ hplan => hplan.1

variable (hnodup : (req.attributeDefinitions.map AttributeDefinition.attributeName).Nodup)
include hnodup

/-- The GSIs planned have the declared attributes, with their types. -/
theorem validateGsiPlans_ok (h : validateGsiPlans req pk sk = .ok gsis)
    (hstructures : validateGsiStructures req.tableName [] req.gsis = .ok ()) :
    (∀ attr, (∃ gsi ∈ req.gsis, attr ∈ gsi.keySchema.map KeySchemaElement.attributeName) ↔
      ∃ g ∈ gsis, attr ∈ g.partition.1 :: (g.sort.map Prod.fst).toList) ∧
    ∀ g ∈ gsis, ∀ c ∈ g.partition :: g.sort.toList,
      DefinedAs req.tableName req.attributeDefinitions c.1 c.2 := by
  obtain ⟨defs, htypes, hplans⟩ := validateGsiPlans_planned h hstructures
  refine ⟨fun attr => exists_iff_of_forall₂ hplans ?_, fun g hg c hc => ?_⟩
  · rintro gsi _ plan ⟨_, hfirst, _⟩
    rw [← (keySchemaOf_attrs hfirst).mem_iff]
  · obtain ⟨_, _, _, _, hget⟩ := mem_of_forall₂ hplans g hg
    exact htypes hnodup _ _ (hget c hc)

theorem validateLsiStructures_ok (h : validateLsiStructures req pk sk = .ok lsis) :
    (∀ attr, attr ≠ pk →
      ((∃ lsi ∈ req.lsis, attr ∈ lsi.keySchema.map KeySchemaElement.attributeName) ↔
        attr ∈ lsis.map fun plan => plan.2.1)) ∧
    ∀ plan ∈ lsis, DefinedAs req.tableName req.attributeDefinitions plan.2.1 plan.2.2 := by
  obtain ⟨_, defs, htypes, hplans⟩ := validateLsiStructures_planned h
  refine ⟨fun attr hne => ?_, fun plan hplan => ?_⟩
  · rw [mem_map]
    refine exists_iff_of_forall₂ hplans ?_
    rintro lsi _ plan ⟨_, hfirst, _⟩
    rw [← (keySchemaOf_attrs hfirst).mem_iff]
    simp [hne, eq_comm]
  · obtain ⟨_, _, _, _, hget⟩ := mem_of_forall₂ hplans plan hplan
    exact htypes hnodup _ _ hget

end

theorem validateCreateTable_ok {req : CreateTableRequest} {plan : CreateTablePlan}
    (h : validateCreateTable req = .ok plan) :
    validateKeySchemaAndAttrs req = .ok ((plan.pkAttr, plan.pkType), plan.sk) ∧
      validateGsiStructures req.tableName [] req.gsis = .ok () ∧
      validateGsiPlans req plan.pkAttr (plan.sk.map Prod.fst) = .ok plan.gsis ∧
      validateLsiStructures req plan.pkAttr (plan.sk.map Prod.fst) = .ok plan.lsis := by
  obtain ⟨_, _, h⟩ := bind_ok h
  obtain ⟨_, _, h⟩ := bind_ok h
  obtain ⟨_, _, h⟩ := bind_ok h
  obtain ⟨_, _, h⟩ := bind_ok h
  obtain ⟨_, hkeys, h⟩ := bind_ok h
  obtain ⟨_, hstructures, h⟩ := bind_ok h
  obtain ⟨_, hgsis, h⟩ := bind_ok h
  obtain ⟨_, hlsis, h⟩ := bind_ok h
  obtain ⟨_, _, h⟩ := bind_ok h
  obtain ⟨_, _, h⟩ := bind_ok h
  cases h
  exact ⟨hkeys, hstructures, hgsis, hlsis⟩

theorem validateCreateTable_names {req : CreateTableRequest} {plan : CreateTablePlan}
    (h : validateCreateTable req = .ok plan) :
    (plan.lsis.map Prod.fst).Nodup ∧ (plan.gsis.map GsiPlan.name).Nodup := by
  obtain ⟨_, hstructures, hgsis, hlsis⟩ := validateCreateTable_ok h
  refine ⟨(validateLsiStructures_planned hlsis).1, ?_⟩
  rw [validateGsiPlans_names hgsis hstructures]
  exact (validateGsiStructures_ok hstructures).1.1

end Rektifier
