import Rektifier.SingleStatements

namespace Rektifier

open Fallible List Function

variable {item : Json} {sets : List (String × Json)} {removes : List String}

section

variable {bk : BaseKey} {k : PgKey} {params : List Param} {snapshot t t' : PgTable bk} {data : Json}

theorem object_of_generatedKey (h : generatedKey bk data = .ok k) :
    ∃ members, data = .obj members := by
  cases data with
  | obj members => exact ⟨members, rfl⟩
  | _ =>
    obtain ⟨pk, hpk, _⟩ := bind_ok h
    obtain ⟨v, hv, hpk⟩ := bind_ok hpk
    cases hv
    cases hpk

theorem replaceData_items {row : PgRow} {cols : List DualWriteCol}
    (hk : generatedKey bk data = .ok k) (h : t.replaceData k row cols data = .ok t') :
    t'.items k = some data := by
  obtain ⟨m, _, hrows⟩ := replaceData_rows hk h
  rw [PgTable.items, hrows, update_self]
  rfl

/-- An upsert returns the item of its snapshot and leaves the item it returns. -/
theorem UpsertSql.execFrom_ok {stmt : UpsertSql} {new : Json} {old : Option Json}
    (hprev : stmt.prev.eval bk params = .ok k) (hinsert : stmt.insert.eval params .null = .ok item)
    (hk : generatedKey bk item = .ok k)
    (hupdate : ∀ row data, t.rows k = some row → stmt.doUpdate.eval params row.data = .ok data →
      generatedKey bk data = .ok k)
    (h : stmt.execFrom params snapshot t = .ok (t', new, old)) :
    old = snapshot.items k ∧ t'.items k = some new := by
  obtain ⟨k₁, hk₁, h⟩ := bind_ok h
  cases hprev.symm.trans hk₁
  obtain ⟨item₁, hitem₁, h⟩ := bind_ok h
  cases hinsert.symm.trans hitem₁
  obtain ⟨proposed, hproposed, h⟩ := bind_ok h
  obtain ⟨k₂, hk₂, h⟩ := bind_ok h
  cases hk.symm.trans (generatedCols_ok_iff.mp hk₂).2
  split at h
  next =>
    obtain ⟨t'', ht, h⟩ := bind_ok h
    cases h
    refine ⟨rfl, ?_⟩
    have hdata := newVersion_data hproposed
    rw [PgTable.items, write_rows (hdata ▸ hk) ht, update_self, ← hdata]
    rfl
  next row hrow =>
    obtain ⟨data, hdata, h⟩ := bind_ok h
    obtain ⟨t'', ht, h⟩ := bind_ok h
    cases h
    exact ⟨rfl, replaceData_items (hupdate row new hrow hdata) ht⟩

/-- The snapshot has no say in whether an upsert succeeds. -/
theorem UpsertSql.execFrom_of_exec {stmt : UpsertSql} {new : Json} {old : Option Json}
    (hprev : stmt.prev.eval bk params = .ok k) (h : stmt.exec params t = .ok (t', new, old)) :
    stmt.execFrom params snapshot t = .ok (t', new, snapshot.items k) := by
  obtain ⟨k₁, hk₁, h⟩ := bind_ok h
  cases hprev.symm.trans hk₁
  obtain ⟨item, hitem, h⟩ := bind_ok h
  obtain ⟨proposed, hproposed, h⟩ := bind_ok h
  obtain ⟨k₂, hk₂, h⟩ := bind_ok h
  refine bind_ok_iff.mpr ⟨k, hprev, bind_ok_iff.mpr ⟨item, hitem,
    bind_ok_iff.mpr ⟨proposed, hproposed, bind_ok_iff.mpr ⟨k₂, hk₂, ?_⟩⟩⟩⟩
  rcases hrow : t.rows k₂ with _ | row
  · rw [hrow] at h
    obtain ⟨t'', ht, h⟩ := bind_ok h
    cases h
    simp only [ht]
    rfl
  · rw [hrow] at h
    obtain ⟨data, hdata, h⟩ := bind_ok h
    obtain ⟨t'', ht, h⟩ := bind_ok h
    cases h
    simp only [hdata, bind, Except.bind, ht]
    rfl

theorem UpdateWhereSql.execFrom_ok {stmt : UpdateWhereSql} {new old : Json}
    (hkey : stmt.key.eval bk params = .ok k)
    (hset : ∀ row data, t.rows k = some row → stmt.set.eval params row.data = .ok data →
      generatedKey bk data = .ok k)
    (h : stmt.execFrom params snapshot t = .ok (some (t', new, old))) :
    some old = snapshot.items k ∧ t'.items k = some new := by
  obtain ⟨k₁, hk₁, h⟩ := bind_ok h
  cases hkey.symm.trans hk₁
  split at h
  next => cases h
  next seen hseen =>
    obtain ⟨pass, _, h⟩ := bind_ok h
    split at h
    next =>
      split at h
      next => cases h
      next row hrow =>
        obtain ⟨again, _, h⟩ := bind_ok h
        split at h
        next =>
          obtain ⟨data, hdata, h⟩ := bind_ok h
          obtain ⟨t'', ht, h⟩ := bind_ok h
          cases h
          refine ⟨?_, replaceData_items (hset row new hrow hdata) ht⟩
          rw [PgTable.items, hseen]
          rfl
        next => cases h
    next => cases h

end

variable {shape : TableShape} {k : PgKey} {st : KeyStatement} {snapshot t t' : PgTable shape.baseKey}
  {outcome : UpdateOutcome}

/-- The SET / REMOVE chain keeps the row's key. -/
theorem KeyStatement.On.chain_key (hon : st.On shape k)
    (htouches : st.call.touches = sets.map Prod.fst ++ removes)
    (pre post : List Param) {row : PgRow} {data : Json} (hrow : t.rows k = some row)
    (heval : (removeChain (pre.length + 1 + 2 * sets.length) removes.length
        (setChain (pre.length + 1) sets.length .data)).eval
      (pre ++ setParams sets ++ removes.map Param.text ++ post) row.data = .ok data) :
    generatedKey shape.baseKey data = .ok k := by
  have hkeyed := t.keyed k row hrow
  obtain ⟨members, hmembers⟩ := object_of_generatedKey hkeyed
  rw [hmembers, chain_eval_obj] at heval
  cases heval
  rw [hmembers] at hkeyed
  have hget : ∀ n, n ∉ st.call.touches →
      (Json.obj (Entries.eraseAll (Entries.insertAll members sets) removes)).get n
        = (Json.obj members).get n := by
    intro n hn
    rw [htouches, mem_append, not_or] at hn
    rw [Json.get_obj, Json.get_obj, Entries.get_eraseAll_of_not_mem hn.2,
      Entries.get_insertAll_of_not_mem hn.1]
  rw [← hkeyed]
  exact generatedKey_congr (hget _ hon.keepsPk) fun col ty hs => hget _ (hon.keepsSk col ty hs)

theorem KeyStatement.run_putItem_ok (hon : st.On shape k)
    (hcall : st.call = .putItem item) (h : st.run shape snapshot t = .ok (t', outcome)) :
    outcome.oldItem = snapshot.items k ∧ t'.items k = some outcome.newItem := by
  have hgen := hon.inserts item (by rw [hcall]; rfl)
  simp only [KeyStatement.run, hcall] at h
  obtain ⟨_, _, h⟩ := bind_ok h
  obtain ⟨⟨t'', new, old⟩, hexec, h⟩ := bind_ok h
  cases h
  have hparam : jsonbArg (keyParams st.pk st.sk ++ [.jsonb item]) shape.insertParamIdx
      = .ok item := by
    rw [insertParamIdx_eq hon.fits]
    exact jsonbArg_append _ [] item
  refine UpsertSql.execFrom_ok ((putSql_prev hon.fits item).trans hon.key) hparam hgen ?_
    (pgResult_ok hexec)
  intro row data _ hdata
  cases hparam.symm.trans hdata
  exact hgen

theorem KeyStatement.run_putItem_exists (hon : st.On shape k)
    (hcall : st.call = .putItem item) (hfill : storable shape.baseKey shape.dualWriteCols item)
    (snapshot t : PgTable shape.baseKey) :
    ∃ t' outcome, st.run shape snapshot t = .ok (t', outcome) := by
  have hgen := hon.inserts item (by rw [hcall]; rfl)
  have hprev := (putSql_prev hon.fits item).trans hon.key
  have hparam : jsonbArg (keyParams st.pk st.sk ++ [.jsonb item]) shape.insertParamIdx
      = .ok item := by
    rw [insertParamIdx_eq hon.fits]
    exact jsonbArg_append _ [] item
  rcases upsertSql_exec hprev hparam hgen (fun _ => rfl)
    (fun row (_ : t.rows k = some row) => ⟨hparam, hgen⟩) with
    ⟨_, _, t', ⟨new, old⟩, he, _⟩ | ⟨hno, _⟩
  · have hexec : (putSql shape).execFrom _ snapshot t = _ := UpsertSql.execFrom_of_exec hprev he
    refine ⟨t', ⟨new, snapshot.items k⟩, ?_⟩
    simp only [KeyStatement.run, hcall, checkSkShape_ok hon.fits, hexec]
    rfl
  · exact absurd ⟨(Bool.and_eq_true_iff.mp hfill).1, hfill⟩ hno

theorem KeyStatement.run_updateSimple_ok (hon : st.On shape k) {insertItem : Json}
    (hcall : st.call = .updateSimple insertItem sets removes)
    (h : st.run shape snapshot t = .ok (t', outcome)) :
    outcome.oldItem = snapshot.items k ∧ t'.items k = some outcome.newItem := by
  have hgen := hon.inserts insertItem (by rw [hcall]; rfl)
  simp only [KeyStatement.run, hcall, updateSimpleParams] at h
  obtain ⟨_, _, h⟩ := bind_ok h
  obtain ⟨_, _, h⟩ := bind_ok h
  obtain ⟨⟨t'', new, old⟩, hexec, h⟩ := bind_ok h
  cases h
  have hexec := pgResult_ok hexec
  rw [buildUpdateSql_eq hon.fits _ _ insertItem] at hexec
  refine UpsertSql.execFrom_ok ?_ ?_ hgen ?_ hexec
  · have hprev := keyPredicate_eval hon.fits [] ([.jsonb insertItem] ++ setParams sets
      ++ removes.map Param.text)
    rw [hon.key, nil_append] at hprev
    simp only [append_assoc] at hprev ⊢
    exact hprev
  · have hinsert := jsonbArg_append (keyParams st.pk st.sk)
      (setParams sets ++ removes.map Param.text) insertItem
    simp only [append_assoc, cons_append, nil_append] at hinsert ⊢
    exact hinsert
  · intro row data hrow hdata
    refine hon.chain_key (by rw [hcall]; rfl) (keyParams st.pk st.sk ++ [.jsonb insertItem]) []
      hrow ?_
    rw [append_nil]
    exact hdata

theorem KeyStatement.run_updateWithSimpleCondition_ok (hon : st.On shape k) {condition : Condition}
    (hcall : st.call = .updateWithSimpleCondition sets removes condition)
    (h : st.run shape snapshot t = .ok (t', outcome)) :
    outcome.oldItem = snapshot.items k ∧ t'.items k = some outcome.newItem := by
  simp only [KeyStatement.run, hcall] at h
  obtain ⟨_, _, h⟩ := bind_ok h
  obtain ⟨⟨cond, b⟩, hcompile, h⟩ := bind_ok h
  obtain ⟨_, _, h⟩ := bind_ok h
  obtain ⟨r, hexec, h⟩ := bind_ok h
  rcases r with _ | ⟨t'', new, old⟩
  · cases h
  · cases h
    obtain ⟨hexpr, hparams⟩ := bindUpdate_eq st.pk st.sk sets removes
    obtain ⟨ext, hext, _⟩ := compileCondition_emits OrderedMap.empty
      (hon.routed sets removes condition hcall) hcompile
    rw [hparams] at hext
    have hexec := pgResult_ok hexec
    rw [hexpr, (bindKeys_eq st.pk st.sk).1] at hexec
    refine UpdateWhereSql.execFrom_ok ?_ ?_ hexec
    · have hkey := keyPredicate_eval hon.fits [] (setParams sets ++ removes.map Param.text ++ ext)
      rw [hon.key, nil_append] at hkey
      rw [hext]
      simp only [append_assoc] at hkey ⊢
      exact hkey
    · intro row data hrow hdata
      rw [hext] at hdata
      exact hon.chain_key (by rw [hcall]; rfl) (keyParams st.pk st.sk) ext hrow hdata

/-- A success returns the item of its snapshot as the old one, and leaves the new one. -/
theorem KeyStatement.run_ok (hon : st.On shape k)
    (h : st.run shape snapshot t = .ok (t', outcome)) :
    outcome.oldItem = snapshot.items k ∧ t'.items k = some outcome.newItem := by
  cases hcall : st.call with
  | putItem item => exact run_putItem_ok hon hcall h
  | updateSimple insertItem sets removes => exact run_updateSimple_ok hon hcall h
  | updateWithSimpleCondition sets removes condition =>
    exact run_updateWithSimpleCondition_ok hon hcall h

end Rektifier
