import Rektifier.IndexRead

namespace Rektifier

variable {shape : TableShape} {data : Json} {attr : String} {t : KeyType} {v : Option PgValue}

def carriesKey (shape : TableShape) (data : Json) : Bool :=
  (extractText data shape.pkCol shape.pkType.tag).isSome &&
    shape.sk.all fun k => (extractText data k.1 k.2.tag).isSome

/-- A key value read from the JSONB is the one its column holds. -/
theorem extractKeyFromJsonb_column (h : extractCol attr t data = .ok v) :
    (extractKeyFromJsonb data attr t = none ∧ extractText data attr t.tag = none ∧ v = none) ∨
    ∃ kv b, extractKeyFromJsonb data attr t = some kv ∧
      (extractText data attr t.tag).isSome ∧ v = some b ∧ kv.pg = .ok b := by
  unfold extractCol at h
  unfold extractKeyFromJsonb
  rcases htext : extractText data attr t.tag with _ | s
  · simp only [htext] at h
    cases h
    exact .inl ⟨rfl, rfl, rfl⟩
  · simp only [htext] at h
    right
    obtain ⟨b, hcast, rfl⟩ := Fallible.map_ok_iff.mp h
    cases t with
    | s =>
      cases hcast
      exact ⟨.s s, _, rfl, rfl, rfl, rfl⟩
    | n => exact ⟨.n s, b, rfl, rfl, rfl, hcast⟩
    | b =>
      unfold castKey at hcast
      rcases hdecode : Base64.decode s with _ | bytes
      · simp [hdecode] at hcast
      · simp only [hdecode] at hcast
        cases hcast
        exact ⟨.b bytes, _, by simp [hdecode], rfl, rfl, rfl⟩

/-- The columns tell whether a row has a key to go on from, and which. -/
theorem ShapeRow.lek_cases (row : ShapeRow shape) :
    (carriesKey shape row.data = false ∧ lekFromRow row.data shape = none ∧
      (row.pkCol = none ∨ shape.sk.isSome ∧ row.skCol = none)) ∨
    (carriesKey shape row.data ∧ ∃ pk b, row.pkCol = some b ∧ pk.pg = .ok b ∧
      ((shape.sk = none ∧ row.skCol = none ∧ lekFromRow row.data shape = some (pk, none)) ∨
        (shape.sk.isSome ∧ ∃ sk c, row.skCol = some c ∧ sk.pg = .ok c ∧
          lekFromRow row.data shape = some (pk, some sk)))) := by
  have hsk := row.sk_eq
  unfold skColumn at hsk
  unfold carriesKey lekFromRow
  rcases extractKeyFromJsonb_column row.pk_eq with ⟨hkey, htext, hcol⟩ | ⟨pk, b, hkey, htext, hcol, hpg⟩
  · left
    simp [hkey, htext, hcol]
  · rcases hshape : shape.sk with _ | ⟨col, ty⟩
    · rw [hshape] at hsk
      have hnone : row.skCol = none := (Except.ok.inj hsk).symm
      right
      exact ⟨by simp [htext], pk, b, hcol, hpg, .inl ⟨rfl, hnone, by simp [hkey]⟩⟩
    · rw [hshape] at hsk
      rcases extractKeyFromJsonb_column hsk with
        ⟨hskKey, hskText, hskCol⟩ | ⟨sk, c, hskKey, hskText, hskCol, hskPg⟩
      · left
        simp [hkey, hskKey, hskText, hskCol]
      · right
        refine ⟨by simp [htext, hskText], pk, b, hcol, hpg, .inr ⟨rfl, sk, c, hskCol, hskPg, ?_⟩⟩
        simp [hkey, hskKey]

theorem ShapeRow.data_injective : Function.Injective fun row : ShapeRow shape => row.data := by
  rintro ⟨data, pk, sk, hpk, hsk⟩ ⟨data', pk', sk', hpk', hsk'⟩ rfl
  obtain rfl : pk = pk' := Except.ok.inj (hpk.symm.trans hpk')
  obtain rfl : sk = sk' := Except.ok.inj (hsk.symm.trans hsk')
  rfl

theorem pageOutcome_items {filter : Option (Json → Bool)} {n : Nat} {scanned : List Json} :
    (pageOutcome shape filter n scanned).items
      = scanned.filter fun data => filter.all fun f => f data := by
  cases filter with
  | none | some f => simp [pageOutcome]

theorem like_any {text : List Char} : like ['%'] text := by
  have hmem : [] ∈ text.tails := (List.mem_tails _ _).mpr List.nil_suffix
  simp only [like, List.any_eq_true]
  exact ⟨[], hmem, rfl⟩

theorem like_escapeLike (start text : List Char) :
    like (escapeLike start ++ ['%']) text = start.isPrefixOf text := by
  induction start generalizing text with
  | nil => simp [escapeLike, like_any]
  | cons c start ih =>
    have hcons : escapeLike (c :: start)
        = (if c = '\\' ∨ c = '%' ∨ c = '_' then ['\\', c] else [c]) ++ escapeLike start := rfl
    rw [hcons]
    by_cases hspecial : c = '\\' ∨ c = '%' ∨ c = '_'
    · rw [if_pos hspecial]
      rcases text with _ | ⟨d, text⟩
      · simp [like, List.isPrefixOf]
      · simp [like, List.isPrefixOf, ih, beq_eq_decide]
    · rw [if_neg hspecial]
      push Not at hspecial
      obtain ⟨hescape, hpercent, hunderscore⟩ := hspecial
      rcases text with _ | ⟨d, text⟩
      · simp [like, List.isPrefixOf, hescape]
      · simp [like, List.isPrefixOf, ih, hescape, beq_eq_decide]

/-- The test of a begin is the match of its pattern, which the texts that begin so pass, whatever
wildcards and escapes stand in either. -/
theorem begins_with_pattern_iff [LinearOrder PgValue] (start text : String) :
    ∃ selects, (SkCondition.beginsWithS start).test = .ok selects ∧
      selects (.text text) = like (escapeLike start.toList ++ ['%']) text.toList ∧
      (like (escapeLike start.toList ++ ['%']) text.toList = true ↔
        start.toList <+: text.toList) := by
  refine ⟨_, rfl, rfl, ?_⟩
  rw [like_escapeLike]
  exact List.isPrefixOf_iff_prefix

example : like (escapeLike "50%_\\".toList ++ ['%']) "50%_\\ off".toList = true ∧
    like (escapeLike "50%_\\".toList ++ ['%']) "50 percent".toList = false := by
  decide

end Rektifier
