import Rektifier.ShapeSql

namespace Rektifier

open List

variable {rest rest' : List Char} {cols' : List DualWriteCol} {shape shape' : TableShape}

/-- Neither name holds a mark of the signature. -/
def DualWriteCol.Unmarked (c : DualWriteCol) : Prop :=
  ∀ name ∈ [c.col, c.attr], ':' ∉ name.toList ∧ ',' ∉ name.toList

/-- No mark of a cache key in the names, and no column twice. -/
structure TableShape.PlainNames (shape : TableShape) : Prop where
  table : '|' ∉ shape.table.toList
  cols : ∀ c ∈ shape.dualWriteCols, c.Unmarked
  distinct : (shape.dualWriteCols.map DualWriteCol.col).Nodup

theorem quoteIdent_toList (name : String) :
    (quoteIdent name).toList = '"' :: (SqlLiteral.double '"' name.toList ++ ['"']) := by
  simp [quoteIdent]

/-- A quoted identifier ends at its closing quote. -/
theorem quoteIdent_append_inj {name name' : String}
    (hrest : rest.head? ≠ some '"') (hrest' : rest'.head? ≠ some '"')
    (h : (quoteIdent name).toList ++ rest = (quoteIdent name').toList ++ rest') :
    name = name' ∧ rest = rest' := by
  rw [quoteIdent_toList, quoteIdent_toList, List.cons_append, List.cons_append, List.append_assoc,
    List.append_assoc] at h
  obtain ⟨hname, hsame⟩ := SqlLiteral.double_append_inj hrest hrest' (List.cons.inj h).2
  exact ⟨String.ext hname, hsame⟩

theorem castForKeytype_append_inj {t t' : KeyType}
    (hrest : rest.head? ≠ some ':') (hrest' : rest'.head? ≠ some ':')
    (h : (castForKeytype t).toList ++ rest = (castForKeytype t').toList ++ rest') :
    castForKeytype t = castForKeytype t' ∧ rest = rest' := by
  have hnumeric : ∀ r r' : List Char, r.head? ≠ some ':' → r ≠ "::numeric".toList ++ r' := by
    rintro r r' hr rfl
    exact hr rfl
  by_cases hsame : castForKeytype t = castForKeytype t'
  · rw [hsame] at h
    exact ⟨hsame, List.append_cancel_left h⟩
  · exfalso
    cases t <;> cases t' <;> first
      | exact hsame rfl
      | exact hnumeric _ _ hrest h
      | exact hnumeric _ _ hrest' h.symm

theorem keyType_ext {t t' : KeyType} (hcast : castForKeytype t = castForKeytype t')
    (htype : pgTypeForKeytype t = pgTypeForKeytype t') : t = t' := by
  cases t <;> cases t' <;>
    first | rfl | exact absurd hcast (by decide) | exact absurd htype (by decide)

theorem head_append_ne {lit : List Char} {c d : Char} (hlit : lit.head? = some d)
    (hne : d ≠ c) : (lit ++ rest).head? ≠ some c := by
  rw [List.head?_append, hlit]
  simpa using hne

theorem keyPredicateText_inj (hrest : rest.head? ≠ some ':')
    (hrest' : rest'.head? ≠ some ':')
    (h : shape.keyPredicateText.toList ++ rest = shape'.keyPredicateText.toList ++ rest')
    (htypes : (ShapeSql.build shape).keyTypes = (ShapeSql.build shape').keyTypes) :
    shape.pkCol = shape'.pkCol ∧ shape.pkType = shape'.pkType ∧ shape.sk = shape'.sk ∧
      rest = rest' := by
  obtain ⟨hpk, hsk⟩ := List.cons.inj htypes
  simp only [TableShape.keyPredicateText, String.toList_append, List.append_assoc] at h
  obtain ⟨hcol, h⟩ := quoteIdent_append_inj (head_append_ne rfl (by decide))
    (head_append_ne rfl (by decide)) h
  replace h := List.append_cancel_left h
  cases hs : shape.sk with
  | none =>
    cases hs' : shape'.sk with
    | some sk' =>
      rw [hs, hs'] at hsk
      cases hsk
    | none =>
      simp only [hs, hs'] at h
      obtain ⟨hcast, hrest⟩ := castForKeytype_append_inj hrest hrest' h
      exact ⟨hcol, keyType_ext hcast hpk, rfl, hrest⟩
  | some sk =>
    cases hs' : shape'.sk with
    | none =>
      rw [hs, hs'] at hsk
      cases hsk
    | some sk' =>
      simp only [hs, hs', String.toList_append, List.append_assoc] at h
      obtain ⟨hcast, h⟩ := castForKeytype_append_inj (head_append_ne rfl (by decide))
        (head_append_ne rfl (by decide)) h
      obtain ⟨hskCol, h⟩ := quoteIdent_append_inj (head_append_ne rfl (by decide))
        (head_append_ne rfl (by decide)) (List.append_cancel_left h)
      obtain ⟨hskCast, hrest⟩ := castForKeytype_append_inj hrest hrest' (List.append_cancel_left h)
      rw [hs, hs'] at hsk
      have hskType := keyType_ext hskCast (List.cons.inj hsk).1
      exact ⟨hcol, keyType_ext hcast hpk, by rw [Prod.ext hskCol hskType], hrest⟩

theorem listed_cons (part : String) (parts : List String) :
    listed (part :: parts) = ", " ++ part ++ listed parts := by
  simp [listed, String.join_cons]

/-- A list of columns ends at its bracket. -/
theorem listed_columns_inj {cols : List DualWriteCol}
    (h : (listed (cols.map fun c => quoteIdent c.col)).toList ++ ')' :: rest =
      (listed (cols'.map fun c => quoteIdent c.col)).toList ++ ')' :: rest') :
    cols.map DualWriteCol.col = cols'.map DualWriteCol.col := by
  have hhead : ∀ (cols : List DualWriteCol) (rest : List Char),
      ((listed (cols.map fun c => quoteIdent c.col)).toList ++ ')' :: rest).head? ≠ some '"' := by
    rintro (_ | ⟨c, cols⟩) rest
    · simp [listed]
    · rw [map_cons, listed_cons, String.toList_append, String.toList_append, append_assoc,
        append_assoc]
      exact head_append_ne rfl (by decide)
  induction cols generalizing cols' with
  | nil =>
    cases cols' with
    | nil => rfl
    | cons c' cols' =>
      rw [map_cons, listed_cons] at h
      simp [listed] at h
  | cons c cols ih =>
    cases cols' with
    | nil =>
      rw [map_cons, listed_cons] at h
      simp [listed] at h
    | cons c' cols' =>
      rw [map_cons, map_cons, listed_cons, listed_cons] at h
      simp only [String.toList_append, append_assoc] at h
      obtain ⟨hcol, h⟩ := quoteIdent_append_inj (hhead cols rest) (hhead cols' rest')
        (append_cancel_left h)
      rw [map_cons, map_cons, hcol, ih h]

theorem eq_of_perm_of_map_eq {α β : Type*} {f : α → β} {l l' : List α} (hperm : l.Perm l')
    (hmap : l.map f = l'.map f) (hnodup : (l.map f).Nodup) : l = l' := by
  refine ext_getElem (by simpa using congrArg List.length hmap) fun i hi hi' => ?_
  have hat : f l[i] = f l'[i] := by
    have hget := congrArg (fun fs => fs[i]?) hmap
    simpa [hi, hi'] using hget
  exact inj_on_of_nodup_map hnodup (getElem_mem hi)
    (hperm.mem_iff.mpr (getElem_mem hi')) hat

/-- The SELECT shows the table, its key and the item's column. -/
theorem getSql_inj (h : (ShapeSql.build shape).getSql = (ShapeSql.build shape').getSql)
    (htypes : (ShapeSql.build shape).keyTypes = (ShapeSql.build shape').keyTypes) :
    shape.jsonbCol = shape'.jsonbCol ∧ shape.table = shape'.table ∧ shape.pkCol = shape'.pkCol ∧
      shape.pkType = shape'.pkType ∧ shape.sk = shape'.sk := by
  have htext : ∀ shape : TableShape, (ShapeSql.build shape).getSql.toList =
      "SELECT ".toList ++ ((quoteIdent shape.jsonbCol).toList ++ (" FROM ".toList ++
        ((quoteIdent shape.table).toList ++ (" WHERE ".toList ++
          (shape.keyPredicateText.toList ++ []))))) := by
    intro shape
    change ("SELECT " ++ quoteIdent shape.jsonbCol ++ " FROM " ++ quoteIdent shape.table ++ " WHERE "
      ++ shape.keyPredicateText).toList = _
    simp only [String.toList_append, append_assoc, append_nil]
  have hget := congrArg String.toList h
  rw [htext, htext] at hget
  obtain ⟨hjsonb, hget⟩ := quoteIdent_append_inj (head_append_ne rfl (by decide))
    (head_append_ne rfl (by decide)) (append_cancel_left hget)
  obtain ⟨htable, hget⟩ := quoteIdent_append_inj (head_append_ne rfl (by decide))
    (head_append_ne rfl (by decide)) (append_cancel_left hget)
  obtain ⟨hpk, hpkType, hsk, _⟩ := keyPredicateText_inj (by decide) (by decide)
    (append_cancel_left hget) htypes
  exact ⟨hjsonb, htable, hpk, hpkType, hsk⟩

def insertHead (shape : TableShape) : String :=
  "WITH prev AS (SELECT " ++ quoteIdent shape.jsonbCol ++ " AS old_data FROM "
    ++ quoteIdent shape.table ++ " WHERE " ++ shape.keyPredicateText ++ ") INSERT INTO "
    ++ quoteIdent shape.table ++ " (" ++ quoteIdent shape.jsonbCol

theorem putSql_columns (shape : TableShape) : ∃ rest, (ShapeSql.build shape).putSql.toList =
    (insertHead shape).toList ++
      ((listed (shape.dualWriteCols.map fun c => quoteIdent c.col)).toList ++ ')' :: rest) := by
  have hsplit : ∃ text, (ShapeSql.build shape).putSql = insertHead shape ++
      listed (shape.dualWriteCols.map fun c => quoteIdent c.col) ++ (")" ++ text) := by
    refine ⟨" VALUES ($" ++ (toString shape.itemParam
      ++ listed (shape.dualWriteCols.map (dualWriteExtractExpr shape.itemParam))
      ++ ") ON CONFLICT (" ++ shape.conflictText
      ++ ") DO UPDATE SET " ++ quoteIdent shape.jsonbCol ++ " = EXCLUDED." ++ quoteIdent shape.jsonbCol
      ++ listed (shape.dualWriteCols.map fun c => dualWriteSetExcluded c shape.jsonbCol)
      ++ " RETURNING (SELECT old_data FROM prev) AS old_data"), ?_⟩
    have hopen : ") VALUES ($" = ")" ++ " VALUES ($" := by decide
    change insertHead shape ++ listed (shape.dualWriteCols.map fun c => quoteIdent c.col)
      ++ ") VALUES ($" ++ toString shape.itemParam
      ++ listed (shape.dualWriteCols.map (dualWriteExtractExpr shape.itemParam))
      ++ ") ON CONFLICT (" ++ shape.conflictText
      ++ ") DO UPDATE SET " ++ quoteIdent shape.jsonbCol ++ " = EXCLUDED." ++ quoteIdent shape.jsonbCol
      ++ listed (shape.dualWriteCols.map fun c => dualWriteSetExcluded c shape.jsonbCol)
      ++ " RETURNING (SELECT old_data FROM prev) AS old_data" = _
    rw [hopen]
    simp only [String.append_assoc]
  obtain ⟨text, hsplit⟩ := hsplit
  refine ⟨text.toList, ?_⟩
  rw [hsplit, String.toList_append, String.toList_append, String.toList_append, append_assoc]
  rfl

/-- Without the rules of the rows, which the source's shape does not have. -/
def TableShape.given (shape : TableShape) : TableShape := { shape with rules := .plain }

theorem shape_ext (htable : shape.table = shape'.table) (hpk : shape.pkCol = shape'.pkCol)
    (hpkType : shape.pkType = shape'.pkType) (hsk : shape.sk = shape'.sk)
    (hjsonb : shape.jsonbCol = shape'.jsonbCol)
    (hcols : shape.dualWriteCols = shape'.dualWriteCols) : shape.given = shape'.given := by
  rw [TableShape.given, TableShape.given, htable, hpk, hpkType, hsk, hjsonb, hcols]

/-- With the same dual-write columns, all else is in the texts. -/
theorem build_inj (hplain : shape.PlainNames)
    (hperm : shape.dualWriteCols.Perm shape'.dualWriteCols)
    (h : ShapeSql.build shape = ShapeSql.build shape') : shape.given = shape'.given := by
  have hget : (ShapeSql.build shape).getSql = (ShapeSql.build shape').getSql := by rw [h]
  have htypes : (ShapeSql.build shape).keyTypes = (ShapeSql.build shape').keyTypes := by rw [h]
  obtain ⟨hjsonb, htable, hpk, hpkType, hsk⟩ := getSql_inj hget htypes
  obtain ⟨rest, hput⟩ := putSql_columns shape
  obtain ⟨rest', hput'⟩ := putSql_columns shape'
  have hpredicate : shape.keyPredicateText = shape'.keyPredicateText := by
    unfold TableShape.keyPredicateText
    rw [hpk, hpkType, hsk]
  have hhead : insertHead shape = insertHead shape' := by
    unfold insertHead
    rw [hjsonb, htable, hpredicate]
  rw [h, hput', hhead] at hput
  have hcols := listed_columns_inj (append_cancel_left hput.symm)
  exact shape_ext htable hpk hpkType hsk hjsonb (eq_of_perm_of_map_eq hperm hcols hplain.distinct)

section Keys

variable {c c' : DualWriteCol}

theorem signature_toList (c : DualWriteCol) :
    c.signature.toList = c.col.toList ++ ':' :: (c.attr.toList ++ ':' :: c.keyType.tag.toList) := by
  unfold DualWriteCol.signature
  simp only [String.toList_append, append_assoc]
  rfl

theorem signature_inj (hc : c.Unmarked) (hc' : c'.Unmarked) (h : c.signature = c'.signature) :
    c = c' := by
  obtain ⟨hcol, hattr⟩ := forall_mem_cons.mp hc
  obtain ⟨hcol', hattr'⟩ := forall_mem_cons.mp hc'
  replace hattr := forall_mem_singleton.mp hattr
  replace hattr' := forall_mem_singleton.mp hattr'
  have htext := congrArg String.toList h
  rw [signature_toList, signature_toList] at htext
  obtain ⟨hsameCol, htext⟩ := Delimited.split_at_first hcol.1 hcol'.1 htext
  obtain ⟨hsameAttr, htag⟩ := Delimited.split_at_first hattr.1 hattr'.1 htext
  have htype : c.keyType = c'.keyType := by
    cases ht : c.keyType <;> cases ht' : c'.keyType <;> rw [ht, ht'] at htag <;>
      first | rfl | exact absurd htag (by decide)
  cases c
  cases c'
  rw [DualWriteCol.mk.injEq]
  exact ⟨String.ext hsameCol, String.ext hsameAttr, htype⟩

theorem comma_not_mem_signature (hc : c.Unmarked) : ',' ∉ c.signature.toList := by
  obtain ⟨hcol, hattr⟩ := forall_mem_cons.mp hc
  have htag : ',' ∉ c.keyType.tag.toList := by cases c.keyType <;> decide
  rw [signature_toList]
  simp only [mem_append, mem_cons, not_or]
  exact ⟨hcol.2, by decide, (forall_mem_singleton.mp hattr).2, by decide, htag⟩

theorem perm_of_signatures {cols : List DualWriteCol} (hcols : ∀ c ∈ cols, c.Unmarked)
    (hcols' : ∀ c ∈ cols', c.Unmarked)
    (h : (cols.map DualWriteCol.signature).Perm (cols'.map DualWriteCol.signature)) :
    cols.Perm cols' := by
  have : Nonempty DualWriteCol := ⟨⟨"", "", .s⟩⟩
  have hinj : Set.InjOn DualWriteCol.signature {c | c.Unmarked} :=
    fun _ hc _ hc' heq => signature_inj hc hc' heq
  have hback : ∀ cols : List DualWriteCol, (∀ c ∈ cols, c.Unmarked) →
      (cols.map DualWriteCol.signature).map
        (Function.invFunOn DualWriteCol.signature {c | c.Unmarked}) = cols := by
    intro cols hcols
    rw [map_map]
    refine (map_congr_left fun c hc => ?_).trans (map_id cols)
    exact hinj.leftInvOn_invFunOn (hcols c hc)
  have hmapped := h.map (Function.invFunOn DualWriteCol.signature {c | c.Unmarked})
  rwa [hback cols hcols, hback cols' hcols'] at hmapped

theorem mergeSort_eq_iff_perm {xs ys : List String} : xs.mergeSort = ys.mergeSort ↔ xs.Perm ys := by
  constructor
  · intro h
    exact (mergeSort_perm xs _).symm.trans (h ▸ mergeSort_perm ys _)
  · intro h
    have htrans : ∀ a b c : String, decide (a ≤ b) = true → decide (b ≤ c) = true →
        decide (a ≤ c) = true :=
      fun a b c hab hbc => decide_eq_true (le_trans (of_decide_eq_true hab) (of_decide_eq_true hbc))
    have htotal : ∀ a b : String, (decide (a ≤ b) || decide (b ≤ a)) = true :=
      fun a b => by simpa using le_total a b
    have hsorted : ∀ xs : List String, xs.mergeSort.Pairwise (· ≤ ·) :=
      fun xs => (pairwise_mergeSort htrans htotal xs).imp of_decide_eq_true
    have hperm : xs.mergeSort.Perm ys.mergeSort :=
      (mergeSort_perm xs _).trans (h.trans (mergeSort_perm ys _).symm)
    exact hperm.eq_of_pairwise (fun _ _ _ _ => le_antisymm) (hsorted xs) (hsorted ys)

theorem sorted_parts_unmarked (hplain : shape.PlainNames) :
    ∀ part ∈ (shape.dualWriteCols.map DualWriteCol.signature).mergeSort.map String.toList,
      ',' ∉ part := by
  intro part hpart
  obtain ⟨text, htext, rfl⟩ := mem_map.mp hpart
  obtain ⟨c, hc, rfl⟩ := mem_map.mp (mem_mergeSort.mp htext)
  exact comma_not_mem_signature (hplain.cols c hc)

theorem sorted_parts_ne_nil (h : shape.dualWriteCols ≠ []) :
    (shape.dualWriteCols.map DualWriteCol.signature).mergeSort.map String.toList ≠ [] := by
  intro hnil
  have hlength := congrArg List.length hnil
  rw [length_map, length_mergeSort, length_map] at hlength
  exact h (length_eq_zero_iff.mp hlength)

/-- A cache key of plain names tells the table and the set of dual-write columns only. -/
theorem shapeCacheKey_eq_iff (hplain : shape.PlainNames) (hplain' : shape'.PlainNames) :
    shapeCacheKey shape = shapeCacheKey shape' ↔
      shape.table = shape'.table ∧ shape.dualWriteCols.Perm shape'.dualWriteCols := by
  have hmarked : ∀ s : TableShape, s.dualWriteCols ≠ [] → (shapeCacheKey s).toList =
      s.table.toList ++ '|' :: ("dw=".toList ++ [','].intercalate
        ((s.dualWriteCols.map DualWriteCol.signature).mergeSort.map String.toList)) := by
    intro s hs
    rw [shapeCacheKey, if_neg hs, String.toList_append, String.toList_append, append_assoc,
      String.toList_intercalate]
    rfl
  have hapart : ∀ s s' : TableShape, s.PlainNames → s.dualWriteCols = [] → s'.dualWriteCols ≠ [] →
      shapeCacheKey s ≠ shapeCacheKey s' := by
    intro s s' hs hnone hsome heq
    have hbar : '|' ∈ (shapeCacheKey s').toList := by
      rw [hmarked s' hsome]
      exact mem_append_right _ mem_cons_self
    rw [← heq, shapeCacheKey, if_pos hnone] at hbar
    exact hs.table hbar
  constructor
  · intro h
    by_cases hnone : shape.dualWriteCols = [] <;> by_cases hnone' : shape'.dualWriteCols = []
    · rw [shapeCacheKey, shapeCacheKey, if_pos hnone, if_pos hnone'] at h
      rw [hnone, hnone']
      exact ⟨h, .nil⟩
    · exact absurd h (hapart shape shape' hplain hnone hnone')
    · exact absurd h.symm (hapart shape' shape hplain' hnone' hnone)
    · have htext := congrArg String.toList h
      rw [hmarked shape hnone, hmarked shape' hnone'] at htext
      obtain ⟨htable, htext⟩ := Delimited.split_at_first hplain.table hplain'.table htext
      have hparts := Delimited.intercalate_inj (a := ',') ?_ ?_ ?_ ?_ (append_cancel_left htext)
      · have hsorted := (map_injective_iff.mpr fun _ _ => String.ext) hparts
        refine ⟨String.ext htable, perm_of_signatures hplain.cols hplain'.cols ?_⟩
        exact mergeSort_eq_iff_perm.mp hsorted
      · exact sorted_parts_unmarked hplain
      · exact sorted_parts_unmarked hplain'
      · exact sorted_parts_ne_nil hnone
      · exact sorted_parts_ne_nil hnone'
  · rintro ⟨htable, hperm⟩
    have hsorted := mergeSort_eq_iff_perm.mpr (hperm.map DualWriteCol.signature)
    have hnil : shape.dualWriteCols = [] ↔ shape'.dualWriteCols = [] := by
      rw [← length_eq_zero_iff, hperm.length_eq, length_eq_zero_iff]
    rw [shapeCacheKey, shapeCacheKey, hsorted, htable]
    simp only [hnil]

end Keys

/-- In every history of calls the cache returns the SQL of the shape it is asked for exactly if
shapes with one cache key have one SQL; and for plain names exactly if all shapes of a table with
the same dual-write columns, in whatever order, are the same shape. -/
theorem shape_sql_exact_iff {trace : List ((String → Option ShapeSql) × (TableShape × ShapeSql))}
    {cache : String → Option ShapeSql} (hrun : Run ShapeSqlStep (fun _ => none) trace cache) :
    ((∀ e ∈ trace, e.2.2 = ShapeSql.build e.2.1) ↔ ∀ e ∈ trace, ∀ e' ∈ trace,
      shapeCacheKey e.2.1 = shapeCacheKey e'.2.1 → ShapeSql.build e.2.1 = ShapeSql.build e'.2.1) ∧
    ((∀ e ∈ trace, e.2.1.PlainNames) →
      ((∀ e ∈ trace, e.2.2 = ShapeSql.build e.2.1) ↔ ∀ e ∈ trace, ∀ e' ∈ trace,
        e.2.1.table = e'.2.1.table → e.2.1.dualWriteCols.Perm e'.2.1.dualWriteCols →
          e.2.1.given = e'.2.1.given)) := by
  have hexact := MemoCache.run_exact_iff hrun
  refine ⟨hexact, fun hplain => hexact.trans ?_⟩
  refine forall₂_congr fun e he => forall₂_congr fun e' he' => ?_
  rw [shapeCacheKey_eq_iff (hplain e he) (hplain e' he')]
  constructor
  · exact fun hsame htable hperm => build_inj (hplain e he) hperm (hsame ⟨htable, hperm⟩)
  · rintro hsame ⟨htable, hperm⟩
    have hgiven : ∀ s : TableShape, ShapeSql.build s.given = ShapeSql.build s := fun _ => rfl
    rw [← hgiven e.2.1, ← hgiven e'.2.1, hsame htable hperm]

def ordersShape (pk : String) : TableShape := ⟨"rekt_t_orders", pk, .s, none, "data", [], .plain⟩

theorem shape_sql_exact_repeated : ∃ trace cache, Run ShapeSqlStep (fun _ => none) trace cache ∧
    trace.map (fun e => e.2.1) = [ordersShape "id", ordersShape "id"] ∧
    ∀ e ∈ trace, e.2.2 = ShapeSql.build e.2.1 := by
  have hplain : (ordersShape "id").PlainNames :=
    ⟨by decide, forall_mem_nil _, nodup_nil⟩
  have hrun : ∃ trace cache, Run ShapeSqlStep (fun _ => none) trace cache ∧
      trace.map (fun e => e.2.1) = [ordersShape "id", ordersShape "id"] :=
    ⟨_, _, .cons (.fill (ordersShape "id")) (.cons (.fill (ordersShape "id")) (.nil _)), rfl⟩
  obtain ⟨trace, cache, hrun, hshapes⟩ := hrun
  have hsame : ∀ e ∈ trace, e.2.1 = ordersShape "id" := by
    intro e he
    have hmem := mem_map_of_mem (f := fun e => e.2.1) he
    rw [hshapes] at hmem
    simpa using hmem
  refine ⟨trace, cache, hrun, hshapes, ((shape_sql_exact_iff hrun).2 ?_).mpr ?_⟩
  · intro e he
    rw [hsame e he]
    exact hplain
  · intro e he e' he' _ _
    rw [hsame e he, hsame e' he']

/-- `orders` is created again with another hash key, and read by the old one; and two columns whose
names hold the marks of a key share it. -/
theorem recreated_table_gets_old_sql :
    (createEntry id (hashPlan "id")).toSchema.shape = ordersShape "id" ∧
    (createEntry id (hashPlan "user")).toSchema.shape = ordersShape "user" ∧
    (∃ trace cache, Run ShapeSqlStep (fun _ => none) trace cache ∧
      trace.map Prod.snd = [(ordersShape "id", ShapeSql.build (ordersShape "id")),
        (ordersShape "user", ShapeSql.build (ordersShape "id"))]) ∧
    (ShapeSql.build (ordersShape "id")).getSql =
      "SELECT \"data\" FROM \"rekt_t_orders\" WHERE \"id\" = $1" ∧
    (ShapeSql.build (ordersShape "user")).getSql =
      "SELECT \"data\" FROM \"rekt_t_orders\" WHERE \"user\" = $1" ∧
    shapeCacheKey { ordersShape "id" with dualWriteCols := [⟨"a:b", "c", .s⟩] } =
      shapeCacheKey { ordersShape "id" with dualWriteCols := [⟨"a", "b:c", .s⟩] } := by
  refine ⟨rfl, rfl, ?_, by decide +kernel, by decide +kernel, ?_⟩
  · refine ⟨_, _, .cons (.fill (ordersShape "id")) (.cons (.hit (a := ordersShape "user") ?_)
      (.nil _)), rfl⟩
    rfl
  · have hsignature : (⟨"a:b", "c", .s⟩ : DualWriteCol).signature
        = (⟨"a", "b:c", .s⟩ : DualWriteCol).signature := by decide
    rw [shapeCacheKey, shapeCacheKey, if_neg (by simp), if_neg (by simp), map_singleton,
      map_singleton, hsignature]

end Rektifier
