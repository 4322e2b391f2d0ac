import Rektifier.StartKey

namespace Rektifier

variable {attr : String} {base eff schema : TableSchema} {shape : TableShape}
  {idx : Option IndexSort} {key : KeyValue × Option KeyValue} {esk : Item} {pk sk : KeyValue}

theorem encodeLek_get (attr : String) : (encodeLek pk (some sk) base).get attr =
    if base.sk.map Prod.fst = some attr then some (kvToAv sk)
    else if attr = base.pkAttr then some (kvToAv pk) else none := by
  have hpk : (OrderedMap.empty.insert base.pkAttr (kvToAv pk)).get attr
      = if attr = base.pkAttr then some (kvToAv pk) else none := by
    by_cases hattr : attr = base.pkAttr
    · subst hattr
      rw [OrderedMap.get_insert_self, if_pos rfl]
    · rw [OrderedMap.get_insert_of_ne _ hattr, if_neg hattr]
      rfl
  unfold encodeLek
  rcases base.sk with _ | ⟨name, t⟩
  · simpa using hpk
  · by_cases hattr : attr = name
    · subst hattr
      simp
    · have hname : name ≠ attr := fun h => hattr h.symm
      simp only [OrderedMap.get_insert_of_ne _ hattr, hpk, Option.map_some, Option.some.injEq,
        if_neg hname]

theorem encodeLek_get_none (attr : String) : (encodeLek pk none base).get attr =
    if attr = base.pkAttr then some (kvToAv pk) else none := by
  have hshow : encodeLek pk none base = OrderedMap.empty.insert base.pkAttr (kvToAv pk) := by
    unfold encodeLek
    split <;> simp_all
  rw [hshow]
  by_cases hattr : attr = base.pkAttr
  · subst hattr
    rw [OrderedMap.get_insert_self, if_pos rfl]
  · rw [OrderedMap.get_insert_of_ne _ hattr, if_neg hattr]
    rfl

theorem isKeyAttr_iff :
    base.isKeyAttr attr ↔ attr = base.pkAttr ∨ base.sk.map Prod.fst = some attr := by
  unfold TableSchema.isKeyAttr
  rcases base.sk with _ | ⟨name, t⟩ <;> simp

/-- The names are the same, or the same two the other way round and the two values do not differ. -/
def KeyNamesAgree (base eff : TableSchema) : KeyValue × Option KeyValue → Prop
  | (_, none) => eff.pkAttr = base.pkAttr
  | (pk, some sk) =>
    (eff.pkAttr = base.pkAttr ∧ eff.sk.map Prod.fst = base.sk.map Prod.fst ∧
      eff.sk.map Prod.fst ≠ some eff.pkAttr) ∨
    (pk = sk ∧ ∀ attr, eff.isKeyAttr attr = base.isKeyAttr attr)

theorem kvToAv_inj (h : kvToAv pk = kvToAv sk) : pk = sk := by
  cases pk <;> cases sk <;> cases h <;> rfl

theorem mem_keys_iff {κ α : Type} [LinearOrder κ] {m : OrderedMap κ α} {k : κ} :
    k ∈ m.keys ↔ (m.get k).isSome := by
  constructor
  · intro h
    obtain ⟨⟨k', v⟩, hmem, rfl⟩ := List.mem_map.mp h
    rw [OrderedMap.get_of_mem hmem]
    rfl
  · intro h
    obtain ⟨v, hv⟩ := Option.isSome_iff_exists.mp h
    exact OrderedMap.mem_keys_of_get hv

theorem mem_keys_encodeLek (attr : String) :
    attr ∈ (encodeLek pk (some sk) base).keys ↔ base.isKeyAttr attr := by
  rw [mem_keys_iff, encodeLek_get, isKeyAttr_iff]
  split
  · simp [*]
  · split <;> simp [*]

theorem encodeLek_get_of_ne {attr' : String} (hne : pk ≠ sk)
    (hpk : (encodeLek pk (some sk) base).get attr = some (kvToAv pk))
    (hsk : (encodeLek pk (some sk) base).get attr' = some (kvToAv sk)) :
    attr = base.pkAttr ∧ base.sk.map Prod.fst = some attr' ∧ attr' ≠ attr := by
  have hvalues : kvToAv sk ≠ kvToAv pk := fun h => hne (kvToAv_inj h).symm
  have hdistinct : attr' ≠ attr := by
    rintro rfl
    exact hvalues (Option.some.inj (hsk.symm.trans hpk))
  rw [encodeLek_get] at hpk hsk
  refine ⟨?_, ?_, hdistinct⟩
  · split at hpk
    · exact absurd (Option.some.inj hpk) hvalues
    · split at hpk
      · assumption
      · cases hpk
  · split at hsk
    · assumption
    · split at hsk
      · exact absurd (Option.some.inj hsk).symm hvalues
      · cases hsk

theorem encodeLek_readBack_iff (hname : eff.sk.map Prod.fst = some attr) :
    ((encodeLek pk (some sk) base).get eff.pkAttr = some (kvToAv pk) ∧
      (encodeLek pk (some sk) base).get attr = some (kvToAv sk) ∧
      ∀ a ∈ (encodeLek pk (some sk) base).keys, eff.isKeyAttr a) ↔
    KeyNamesAgree base eff (pk, some sk) := by
  simp only [mem_keys_encodeLek, KeyNamesAgree]
  constructor
  · rintro ⟨hpk, hsk, hextra⟩
    by_cases heq : pk = sk
    · refine .inr ⟨heq, fun a => ?_⟩
      rw [Bool.eq_iff_iff]
      refine ⟨fun ha => ?_, hextra a⟩
      rw [isKeyAttr_iff, hname, Option.some.injEq] at ha
      rcases ha with rfl | rfl
      · exact (mem_keys_encodeLek _).mp (OrderedMap.mem_keys_of_get hpk)
      · exact (mem_keys_encodeLek _).mp (OrderedMap.mem_keys_of_get hsk)
    · obtain ⟨hpkName, hskName, hdistinct⟩ := encodeLek_get_of_ne heq hpk hsk
      refine .inl ⟨hpkName, hname.trans hskName.symm, ?_⟩
      rw [hname]
      exact fun h => hdistinct (Option.some.inj h)
  · rintro (⟨hpkName, hskName, hdistinct⟩ | ⟨rfl, hnames⟩)
    · rw [encodeLek_get, encodeLek_get, ← hskName, if_neg hdistinct, if_pos hpkName, if_pos hname]
      refine ⟨rfl, rfl, fun a ha => ?_⟩
      rwa [isKeyAttr_iff, hpkName, hskName, ← isKeyAttr_iff]
    · have hread : ∀ a, eff.isKeyAttr a →
          (encodeLek pk (some pk) base).get a = some (kvToAv pk) := by
        intro a ha
        rw [hnames, isKeyAttr_iff] at ha
        rw [encodeLek_get]
        rcases ha with ha | ha <;> simp [ha]
      refine ⟨hread _ (isKeyAttr_iff.mpr (.inl rfl)), hread _ (isKeyAttr_iff.mpr (.inr hname)), ?_⟩
      intro a ha
      rwa [hnames]

/-- Written under the base table's names and decoded under the index's. -/
theorem decodeScanEsk_encodeLek_iff (hpk : key.1.keyType = eff.pkType)
    (hsk : key.2.map KeyValue.keyType = eff.sk.map Prod.snd) :
    decodeScanEsk (encodeLek key.1 key.2 base) eff = .ok key ↔ KeyNamesAgree base eff key := by
  obtain ⟨pk, sk⟩ := key
  rw [decodeScanEsk_ok_iff]
  rcases heff : eff.sk with _ | ⟨attr, t⟩
  · rw [heff] at hsk
    obtain rfl : sk = none := Option.map_eq_none_iff.mp hsk
    have hkeys : ∀ a, a ∈ (encodeLek pk none base).keys ↔ a = base.pkAttr := by
      intro a
      rw [mem_keys_iff, encodeLek_get_none]
      split <;> simp [*]
    simp only [encodeLek_get_none, hkeys, KeyNamesAgree, isKeyAttr_iff, heff]
    by_cases hname : eff.pkAttr = base.pkAttr
    · simp [hname, hpk]
    · simp [hname]
  · rw [heff] at hsk
    obtain ⟨v, rfl, _⟩ := Option.map_eq_some_iff.mp hsk
    have hname : eff.sk.map Prod.fst = some attr := by rw [heff]; rfl
    rw [← encodeLek_readBack_iff hname]
    simp only [hpk, hsk, Option.mem_def, Option.some.injEq, forall_eq', Option.map_some, and_true,
      true_and]

end Rektifier
