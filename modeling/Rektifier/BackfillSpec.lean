import Rektifier.Backfill

namespace Rektifier

open Fallible List Function

variable {col : String} {data : Json} {start m : String → Option PgValue}

def ResumeCursor.point : ResumeCursor → Option TextKey
  | .simple prev => prev.map fun p => toLex (p, "")
  | .composite prev => prev.map toLex

theorem toLex_empty_le_iff (a b : String) :
    toLex (a, "") ≤ toLex (b, "") ↔ a ≤ b := by
  rw [Prod.Lex.toLex_le_toLex]
  constructor
  · rintro (h | ⟨h, _⟩)
    · exact h.le
    · exact h.le
  · intro h
    rcases h.lt_or_eq with h | h
    · exact .inl h
    · exact .inr ⟨h, le_rfl⟩

/-- The rows whose text key the cursor has not come to. -/
theorem resumePred_seedCursor (bk : BaseKey) (lastPkCopied : Option Json) (data : Json) :
    resumePred bk (seedCursor bk lastPkCopied) data ↔
      ¬ ∃ c ∈ (seedCursor bk lastPkCopied).point, keyText bk data ≤ c := by
  rcases hs : bk.sk with _ | ⟨col, t⟩
  · rcases hp : lastPkCopied.bind Json.asStr with _ | p
    · simp [resumePred, seedCursor, hs, hp, ResumeCursor.point]
    · simp only [resumePred, seedCursor, hs, hp, ResumeCursor.point, keyText, Option.map_some,
        Option.mem_some_iff, exists_eq_left', toLex_empty_le_iff, not_le, decide_eq_true_eq]
  · simp only [seedCursor, hs]
    generalize (lastPkCopied.bind fun v => _) = prev
    rcases prev with _ | ⟨p, s⟩
    · simp [resumePred, ResumeCursor.point]
    · simp only [resumePred, hs, ResumeCursor.point, keyText, Option.map_some,
        Option.mem_some_iff, exists_eq_left', not_le, decide_eq_true_eq]

theorem seedCursor_lastPkJson (bk : BaseKey) (data : Json) :
    seedCursor bk (some (lastPkJson bk data)) = cursorAfter bk data := by
  rcases hs : bk.sk with _ | ⟨col, t⟩ <;> simp only [seedCursor, lastPkJson, cursorAfter, hs] <;> rfl

theorem point_cursorAfter (bk : BaseKey) (data : Json) :
    (cursorAfter bk data).point = some (keyText bk data) := by
  rcases hs : bk.sk with _ | ⟨col, t⟩ <;> simp only [cursorAfter, keyText, hs] <;> rfl

/-- `::text` of a value that is not a number. -/
def PgValue.textKey : PgValue → String
  | .text s => s
  | .numeric _ => ""
  | .bytea b => String.ofList ('\\' :: 'x' :: hexEncode b)

theorem generatedNotNull_text {t : KeyType} {v : PgValue}
    (ht : t ≠ .n) (h : generatedNotNull col t data = .ok v) :
    keyColumnText col t data = v.textKey ∧
      ((∃ s, v = .text s) ∧ t = .s ∨ (∃ b, v = .bytea b) ∧ t = .b) := by
  obtain ⟨w, hw, h⟩ := bind_ok h
  unfold extractCol at hw
  unfold keyColumnText columnText
  rcases htext : extractText data col t.tag with _ | s
  · rw [htext] at hw
    cases hw
    cases h
  · rw [htext] at hw
    obtain ⟨v', hcast, rfl⟩ := map_ok_iff.mp hw
    cases h
    cases t with
    | n => exact absurd rfl ht
    | s =>
      cases hcast
      exact ⟨rfl, .inl ⟨⟨s, rfl⟩, rfl⟩⟩
    | b =>
      simp only [castKey] at hcast
      rcases hbytes : Base64.decode s with _ | bytes
      · rw [hbytes] at hcast
        cases hcast
      · rw [hbytes] at hcast
        cases hcast
        rw [Option.getD_some, hbytes]
        exact ⟨rfl, .inr ⟨⟨bytes, rfl⟩, rfl⟩⟩

theorem columnText_lt {t : KeyType} {data' : Json} {v v' : PgValue}
    (ht : t ≠ .n) (h : generatedNotNull col t data = .ok v)
    (h' : generatedNotNull col t data' = .ok v') (hle : v.Le v') (hne : v ≠ v') :
    keyColumnText col t data < keyColumnText col t data' := by
  obtain ⟨htext, hkind⟩ := generatedNotNull_text ht h
  obtain ⟨htext', hkind'⟩ := generatedNotNull_text ht h'
  rw [htext, htext']
  rcases hkind with ⟨⟨s, rfl⟩, rfl⟩ | ⟨⟨b, rfl⟩, rfl⟩
  · rcases hkind' with ⟨⟨s', rfl⟩, _⟩ | ⟨_, htype⟩
    · exact lt_of_le_of_ne hle fun heq => hne (congrArg PgValue.text heq)
    · cases htype
  · rcases hkind' with ⟨_, htype⟩ | ⟨⟨b', rfl⟩, _⟩
    · cases htype
    · have hlt : b.map UInt8.toNat < b'.map UInt8.toNat := by
        refine lt_of_le_of_ne hle fun heq => hne ?_
        rw [map_injective_iff.mpr (fun _ _ => UInt8.toNat_inj.mp) heq]
      show String.ofList _ < String.ofList _
      rw [String.lt_iff_toList_lt]
      simp only [String.toList_ofList, cons_lt_cons_iff]
      exact .inr ⟨trivial, .inr ⟨trivial, PercentCoding.hexEncode_lt hlt⟩⟩

def BaseKey.NumberFree (bk : BaseKey) : Prop := bk.pkType ≠ .n ∧ ∀ sk ∈ bk.sk, sk.2 ≠ .n

/-- `ORDER BY` and the text cursor agree on keys without numbers. -/
theorem keyText_lt {bk : BaseKey} (hfree : bk.NumberFree) {data' : Json} {k k' : PgKey}
    (hk : generatedKey bk data = .ok k) (hk' : generatedKey bk data' = .ok k')
    (hle : PgKey.Le k k') (hne : k ≠ k') : keyText bk data < keyText bk data' := by
  obtain ⟨pk, hpk, hk⟩ := bind_ok hk
  obtain ⟨pk', hpk', hk'⟩ := bind_ok hk'
  unfold keyText
  rw [Prod.Lex.toLex_lt_toLex]
  rcases hs : bk.sk with _ | ⟨col, t⟩
  · rw [hs] at hk hk'
    cases hk
    cases hk'
    rcases hle with ⟨hle, hpkne⟩ | ⟨heq, _⟩
    · exact .inl (columnText_lt hfree.1 hpk hpk' hle hpkne)
    · exact absurd (by rw [show pk = pk' from heq]) hne
  · rw [hs] at hk hk'
    obtain ⟨sk, hsk, hk⟩ := bind_ok hk
    obtain ⟨sk', hsk', hk'⟩ := bind_ok hk'
    cases hk
    cases hk'
    rcases hle with ⟨hle, hpkne⟩ | ⟨heq, hskle⟩
    · exact .inl (columnText_lt hfree.1 hpk hpk' hle hpkne)
    · obtain rfl : pk = pk' := heq
      have hskne : sk ≠ sk' := fun heq => hne (by rw [heq])
      have htext : keyColumnText bk.pkCol bk.pkType data = keyColumnText bk.pkCol bk.pkType data' := by
        rw [(generatedNotNull_text hfree.1 hpk).1, (generatedNotNull_text hfree.1 hpk').1]
      exact .inr ⟨htext, columnText_lt (hfree.2 (col, t) hs) hsk hsk' (hskle sk rfl sk' rfl) hskne⟩

theorem fillCols_cons (c : DualWriteCol) (cols : List DualWriteCol) (data : Json)
    (start : String → Option PgValue) :
    fillCols (c :: cols) data start = (do
      let v ← extractCol c.attr c.keyType data
      fillCols cols data (update start c.col v)) := by
  simp only [fillCols, foldlM_cons, bind_assoc, pure_bind]

theorem fillCols_of_not_mem {cols : List DualWriteCol} (h : fillCols cols data start = .ok m)
    (hcol : col ∉ cols.map DualWriteCol.col) : m col = start col := by
  induction cols generalizing start with
  | nil =>
    cases h
    rfl
  | cons c cols ih =>
    rw [fillCols_cons] at h
    obtain ⟨v, _, h⟩ := bind_ok h
    rw [map_cons, mem_cons, not_or] at hcol
    rw [ih h hcol.2, update_of_ne hcol.1]

theorem fillCols_extract {cols : List DualWriteCol} (hnodup : (cols.map DualWriteCol.col).Nodup)
    (h : fillCols cols data start = .ok m) :
    ∀ c ∈ cols, extractCol c.attr c.keyType data = .ok (m c.col) := by
  induction cols generalizing start with
  | nil => simp
  | cons c cols ih =>
    rw [fillCols_cons] at h
    obtain ⟨v, hv, h⟩ := bind_ok h
    rw [map_cons, nodup_cons] at hnodup
    intro c' hc'
    rcases mem_cons.mp hc' with rfl | hc'
    · rw [fillCols_of_not_mem h hnodup.1, update_self, hv]
    · exact ih hnodup.2 h c' hc'

variable {bk : BaseKey} {cols : List DualWriteCol} {t t' : PgTable bk} {k : PgKey}

theorem fillRow_other (h : fillRow cols t k = .ok t') {k' : PgKey} (hk : k' ≠ k) :
    t'.rows k' = t.rows k' := by
  unfold fillRow at h
  split at h
  · cases h
    rfl
  · obtain ⟨m, _, rfl⟩ := map_ok_iff.mp h
    exact t.setCols_of_ne hk m

theorem fillRow_self (h : fillRow cols t k = .ok t') {row : PgRow} (hrow : t.rows k = some row) :
    ∃ m, fillCols cols row.data row.cols = .ok m ∧ t'.rows k = some { row with cols := m } := by
  simp only [fillRow, hrow] at h
  obtain ⟨m, hm, rfl⟩ := map_ok_iff.mp h
  refine ⟨m, hm, ?_⟩
  rw [PgTable.setCols_self, hrow]
  rfl

theorem fillRow_eq {row : PgRow} (hrow : t.rows k = some row)
    (hm : fillCols cols row.data row.cols = .ok m) : fillRow cols t k = .ok (t.setCols k m) := by
  simp only [fillRow, hrow, hm]
  rfl

/-- The rows a chunk returns are filled, the others left alone. -/
theorem fillRows_spec {returned : List PgKey} (hnodup : returned.Nodup)
    (h : returned.foldlM (fillRow cols) t = .ok t') :
    (∀ k, k ∉ returned → t'.rows k = t.rows k) ∧
    ∀ k ∈ returned, ∀ row, t.rows k = some row →
      ∃ m, fillCols cols row.data row.cols = .ok m ∧ t'.rows k = some { row with cols := m } := by
  induction returned generalizing t with
  | nil =>
    cases h
    simp
  | cons k₀ rest ih =>
    rw [foldlM_cons] at h
    obtain ⟨t₁, hfirst, hrest⟩ := bind_ok h
    obtain ⟨hnot, hnodup⟩ := nodup_cons.mp hnodup
    obtain ⟨hother, hself⟩ := ih hnodup hrest
    constructor
    · intro k hk
      rw [mem_cons, not_or] at hk
      rw [hother k hk.2, fillRow_other hfirst hk.1]
    · intro k hk row hrow
      by_cases heq : k = k₀
      · subst heq
        rw [hother k hnot]
        exact fillRow_self hfirst hrow
      · have hmem := (mem_cons.mp hk).resolve_left heq
        exact hself k hmem row (by rw [fillRow_other hfirst heq, hrow])

end Rektifier
