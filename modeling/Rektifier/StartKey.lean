import Rektifier.ReadHandlers
import Rektifier.KeyConditionCorrect

namespace Rektifier

open Fallible

variable {schema eff : TableSchema} {shape : TableShape} {idx : Option IndexSort} {row : Json}
  {key : KeyValue × Option KeyValue} {req : QueryRequest} {plan : QueryPlan} {esk : Item}

theorem extractKeyFromJsonb_keyType {attr : String} {t : KeyType} {kv : KeyValue}
    (h : extractKeyFromJsonb row attr t = some kv) : kv.keyType = t := by
  obtain ⟨s, _, hkv⟩ := Option.bind_eq_some_iff.mp h
  cases t with
  | s | n => cases hkv; rfl
  | b =>
    obtain ⟨bytes, _, rfl⟩ := Option.map_eq_some_iff.mp hkv
    rfl

theorem lekFromRow_typed (h : lekFromRow row shape = some key) :
    key.1.keyType = shape.pkType ∧ key.2.map KeyValue.keyType = shape.sk.map Prod.snd := by
  obtain ⟨pk, hpk, h⟩ := Option.bind_eq_some_iff.mp h
  have hpkType := extractKeyFromJsonb_keyType hpk
  rcases hsk : shape.sk with _ | ⟨col, t⟩
  · rw [hsk] at h
    cases h
    exact ⟨hpkType, rfl⟩
  · rw [hsk] at h
    obtain ⟨sk, hsk, rfl⟩ := Option.map_eq_some_iff.mp h
    exact ⟨hpkType, congrArg some (extractKeyFromJsonb_keyType hsk)⟩

/-- A reported key is that of a row read. -/
theorem pageOutcome_lek {filter : Option (Json → Bool)} {limit : Nat} {scanned : List Json}
    (h : (pageOutcome shape filter limit scanned).lastEvaluatedKey = some key) :
    ∃ row ∈ scanned, lekFromRow row shape = some key := by
  simp only [pageOutcome] at h
  split at h
  · obtain ⟨row, hlast, hrow⟩ := Option.bind_eq_some_iff.mp h
    exact ⟨row, List.mem_of_getLast? hlast, hrow⟩
  · cases h

theorem resolveIndexForQuery_typed {name : Option String}
    (h : resolveIndexForQuery schema name = .ok (eff, idx)) :
    (buildIndexShape schema idx).pkType = eff.pkType ∧
      (buildIndexShape schema idx).sk.map Prod.snd = eff.sk.map Prod.snd := by
  unfold resolveIndexForQuery at h
  split at h
  · cases h
    exact ⟨rfl, rfl⟩
  · split at h
    · obtain ⟨_, _, h⟩ := bind_ok h
      cases h
      exact ⟨rfl, rfl⟩
    · split at h
      · rename_i gsi _
        obtain ⟨_, _, h⟩ := bind_ok h
        cases h
        refine ⟨rfl, ?_⟩
        simp [buildIndexShape, Function.comp_def]
      · cases h

theorem rejectExtraEskAttrs_ok_iff :
    rejectExtraEskAttrs esk schema = .ok () ↔ ∀ attr ∈ esk.keys, schema.isKeyAttr attr := by
  unfold rejectExtraEskAttrs
  rw [forM_ok_iff]
  refine forall₂_congr fun attr _ => ?_
  split <;> simp [*]

theorem eskKey_ok_iff {role attr : String} {t : KeyType} {keyRole : KeyRole} {v : KeyValue} :
    eskKey role esk attr t keyRole = .ok v ↔ esk.get attr = some (kvToAv v) ∧ v.keyType = t := by
  have hkey : extractKey esk attr t keyRole = .ok v ↔ _ := extractKey_ok_iff
  rw [← hkey, eskKey]
  cases extractKey esk attr t keyRole <;> simp [Except.mapError]

theorem eskSk_ok_iff {sk : Option KeyValue} : eskSk esk schema = .ok sk ↔
    sk.map KeyValue.keyType = schema.sk.map Prod.snd ∧
      ∀ k ∈ schema.sk, esk.get k.1 = sk.map kvToAv := by
  unfold eskSk
  rcases hschema : schema.sk with _ | ⟨attr, t⟩
  · rcases sk with _ | v <;> simp
  · rw [map_ok_iff]
    simp only [eskKey_ok_iff]
    rcases sk with _ | v
    · simp
    · simp [and_comm]

/-- Which items a Scan takes for a start key. -/
theorem decodeScanEsk_ok_iff : decodeScanEsk esk eff = .ok key ↔
    (esk.get eff.pkAttr = some (kvToAv key.1) ∧ key.1.keyType = eff.pkType) ∧
    (key.2.map KeyValue.keyType = eff.sk.map Prod.snd ∧
      ∀ k ∈ eff.sk, esk.get k.1 = key.2.map kvToAv) ∧
    ∀ attr ∈ esk.keys, eff.isKeyAttr attr := by
  obtain ⟨pk, sk⟩ := key
  unfold decodeScanEsk
  simp only [bind_ok_iff, eskKey_ok_iff, eskSk_ok_iff, pure, Except.pure, Except.ok.injEq,
    Prod.mk.injEq, ← rejectExtraEskAttrs_ok_iff]
  constructor
  · rintro ⟨pk', hpk, sk', hsk, _, hextra, rfl, rfl⟩
    exact ⟨hpk, hsk, hextra⟩
  · rintro ⟨hpk, hsk, hextra⟩
    exact ⟨pk, hpk, sk, hsk, (), hextra, rfl, rfl⟩

/-- A Query takes the same ones, of its own partition. -/
theorem decodeEsk_ok_iff {queryPk : KeyValue} {sk : Option KeyValue} :
    decodeEsk esk eff queryPk = .ok sk ↔ decodeScanEsk esk eff = .ok (queryPk, sk) := by
  unfold decodeEsk decodeScanEsk
  simp only [bind_ok_iff, pure, Except.pure, Except.ok.injEq, Prod.mk.injEq, checkEskPk]
  constructor
  · rintro ⟨pk, hpk, _, hsame, sk', hsk, _, hextra, rfl⟩
    split at hsame
    · rename_i heq
      exact ⟨pk, hpk, sk', hsk, (), hextra, heq, rfl⟩
    · cases hsame
  · rintro ⟨pk, hpk, sk', hsk, _, hextra, rfl, rfl⟩
    exact ⟨pk, hpk, (), if_pos rfl, sk', hsk, (), hextra, rfl⟩

end Rektifier
