import Rektifier.Introspection

namespace Rektifier

open List

/-- Only a definition of an index on the columns shows their text. -/
def IndexDef.ShowsOnlyKeys (schema table : String) (d : IndexDef) (cols : List String) : Prop :=
  textContains (d.text schema table) (listText cols) = true → d.keyColumns = some cols

theorem find?_key_iff {α κ : Type*} [DecidableEq κ] {f : α → κ} {l : List α} {k : κ} {x : α}
    (h : (l.map f).Nodup) : (l.find? fun a => f a = k) = some x ↔ x ∈ l ∧ f x = k := by
  constructor
  · intro hfound
    exact ⟨mem_of_find?_eq_some hfound, by simpa using List.find?_some hfound⟩
  · rintro ⟨hmem, rfl⟩
    cases hfound : l.find? fun a => f a = f x with
    | none =>
      have hnone := List.find?_eq_none.mp hfound x hmem
      simp at hnone
    | some found =>
      have hkey : f found = f x := by simpa using List.find?_some hfound
      rw [inj_on_of_nodup_map h (mem_of_find?_eq_some hfound) hmem hkey]

theorem listText_toList (names : List String) :
    (listText names).toList = '(' :: (", ".toList.intercalate (names.map String.toList) ++ [')']) := by
  simp [listText, String.toList_intercalate]

theorem textContains_iff {hay needle : String} :
    textContains hay needle ↔ needle.toList <:+: hay.toList := decide_eq_true_iff

section Printed

variable {name : String} {names : List String} {a : Char}

theorem printsPlain_spec (h : printsPlain name) :
    name.toList ≠ [] ∧ ∀ c ∈ name.toList, isSafeChar c := by
  simp only [printsPlain, Bool.and_eq_true, all_eq_true, Bool.not_eq_true',
    isEmpty_eq_false_iff] at h
  exact ⟨h.1.1.1, h.1.1.2⟩

/-- Printed as it is, or it starts with a quote. -/
theorem quoteIdentifier_eq_iff {col : String} (hcol : printsPlain col) :
    quoteIdentifier name = col ↔ name = col := by
  unfold quoteIdentifier
  split
  next => exact Iff.rfl
  next hname =>
    constructor
    · rintro rfl
      have hquote : '"' ∈ (quoteIdent name).toList := by simp [quoteIdent]
      exact absurd ((printsPlain_spec hcol).2 _ hquote) (by decide)
    · rintro rfl
      exact absurd hcol hname

/-- Lists of names printed as they are look alike only if they are one. -/
theorem listText_inj {others : List String} (hne : names ≠ [])
    (hnames : ∀ n ∈ names, ',' ∉ n.toList) (hothers : ∀ n ∈ others, ',' ∉ n.toList)
    (hfirst : ∀ n ∈ names, n.toList ≠ [])
    (h : ", ".toList.intercalate (names.map String.toList)
      = ", ".toList.intercalate (others.map String.toList)) : names = others := by
  have hsplit : names.map String.toList = others.map String.toList := by
    refine Delimited.intercalate_inj ?_ ?_ (by simpa using hne) ?_ h
    · intro x hx
      obtain ⟨n, hn, rfl⟩ := List.mem_map.mp hx
      exact hnames n hn
    · intro x hx
      obtain ⟨n, hn, rfl⟩ := List.mem_map.mp hx
      exact hothers n hn
    · rintro hnone
      rw [hnone] at h
      obtain ⟨n, rest, rfl⟩ := List.exists_cons_of_ne_nil hne
      cases rest with
      | nil => exact hfirst n List.mem_cons_self (by simpa using h)
      | cons m rest => simp [List.intercalate_cons_cons] at h
  exact List.map_injective_iff.mpr (fun _ _ => String.toList_inj.mp) hsplit

end Printed

/-- What a list of names in parentheses is read by. -/
def isMark (c : Char) : Bool := c = '(' || c = ')' || c = ','

/-- The keys are columns, and no name holds a parenthesis or a comma. -/
structure IndexDef.PlainLists (d : IndexDef) : Prop where
  keys : ∀ k ∈ d.keys, k.column?.isSome = true ∧ ∀ c ∈ k.text.toList, isMark c = false
  included : ∀ n ∈ d.included, ∀ c ∈ (quoteIdentifier n).toList, isMark c = false

section Lists

variable {d : IndexDef} {cols : List String} {schema table : String}

theorem isMark_of_safe {c : Char} (h : isSafeChar c) : isMark c = false := by
  by_contra hmark
  simp only [isMark, Bool.not_eq_false, Bool.or_eq_true, decide_eq_true_eq] at hmark
  rcases hmark with (rfl | rfl) | rfl <;> exact absurd h (by decide)

theorem isMark_of_plain {col : String} (h : printsPlain col) :
    ∀ c ∈ col.toList, isMark c = false :=
  fun c hc => isMark_of_safe ((printsPlain_spec h).2 c hc)

theorem not_mem_of_isMark {cs : List Char} (h : ∀ c ∈ cs, isMark c = false) :
    '(' ∉ cs ∧ ')' ∉ cs ∧ ',' ∉ cs :=
  ⟨fun hc => absurd (h _ hc) (by decide), fun hc => absurd (h _ hc) (by decide),
    fun hc => absurd (h _ hc) (by decide)⟩

theorem isMark_quoteIdentifier {name : String} (h : ∀ c ∈ name.toList, isMark c = false) :
    ∀ c ∈ (quoteIdentifier name).toList, isMark c = false := by
  intro c hc
  unfold quoteIdentifier at hc
  split at hc
  next => exact h c hc
  next =>
    simp only [quoteIdent, String.toList_append, String.toList_ofList, List.mem_append] at hc
    rcases hc with (hc | hc) | hc
    · have hquote : c = '"' := by simpa using hc
      rw [hquote]
      decide
    · exact h c (SqlLiteral.mem_of_mem_double hc)
    · have hquote : c = '"' := by simpa using hc
      rw [hquote]
      decide

theorem plainLists_of_names {d : IndexDef} {names : List String}
    (hkeys : d.keys = names.map fun n => .column n [])
    (hnames : ∀ n ∈ names, ∀ c ∈ n.toList, isMark c = false)
    (hincluded : ∀ n ∈ d.included, ∀ c ∈ n.toList, isMark c = false) : d.PlainLists := by
  refine ⟨?_, fun n hn => isMark_quoteIdentifier (hincluded n hn)⟩
  intro k hk
  rw [hkeys] at hk
  obtain ⟨n, hn, rfl⟩ := List.mem_map.mp hk
  refine ⟨rfl, ?_⟩
  have htext : (IndexKey.column n []).text = quoteIdentifier n := by simp [IndexKey.text]
  rw [htext]
  exact isMark_quoteIdentifier (hnames n hn)

theorem key_text_eq {k : IndexKey} {col : String} (hk : k.column?.isSome)
    (hcol : printsPlain col) (h : k.text = col) : k.column? = some col := by
  cases k with
  | expression _ => cases hk
  | column name options =>
    have hnone : options = [] := by
      cases options with
      | nil => rfl
      | cons o options =>
        have hblank : ' ' ∈ col.toList := by
          rw [← h]
          simp [IndexKey.text]
        exact absurd ((printsPlain_spec hcol).2 _ hblank) (by decide)
    subst hnone
    have hprinted : quoteIdentifier name = col := by simpa [IndexKey.text] using h
    rw [IndexKey.column?, (quoteIdentifier_eq_iff hcol).mp hprinted]

theorem mapM_column?_of_texts {keys : List IndexKey}
    (hkeys : ∀ k ∈ keys, k.column?.isSome) (hcols : ∀ c ∈ cols, printsPlain c)
    (h : keys.map IndexKey.text = cols) : keys.mapM IndexKey.column? = some cols := by
  induction keys generalizing cols with
  | nil =>
    subst h
    rfl
  | cons k keys ih =>
    subst h
    obtain ⟨hk, hkeys⟩ := List.forall_mem_cons.mp hkeys
    obtain ⟨hc, hcols⟩ := List.forall_mem_cons.mp hcols
    rw [List.mapM_cons, key_text_eq hk hc rfl, ih hkeys hcols rfl]
    rfl

/-- The names hold no parentheses, and come apart at the commas. -/
theorem intercalate_parens {names : List String}
    (h : ∀ n ∈ names, ∀ c ∈ n.toList, isMark c = false) :
    '(' ∉ ", ".toList.intercalate (names.map String.toList) ∧
      ')' ∉ ", ".toList.intercalate (names.map String.toList) := by
  refine ⟨Delimited.not_mem_intercalate (by decide) ?_,
    Delimited.not_mem_intercalate (by decide) ?_⟩
  · intro x hx
    obtain ⟨n, hn, rfl⟩ := List.mem_map.mp hx
    exact (not_mem_of_isMark (h n hn)).1
  · intro x hx
    obtain ⟨n, hn, rfl⟩ := List.mem_map.mp hx
    exact (not_mem_of_isMark (h n hn)).2.1

structure Unmarked (cols : List String) : Prop where
  nonempty : cols ≠ []
  named : ∀ c ∈ cols, c.toList ≠ []
  marks : ∀ c ∈ cols, ∀ a ∈ c.toList, isMark a = false

theorem unmarked_of_plain (hne : cols ≠ []) (hcols : ∀ c ∈ cols, printsPlain c) :
    Unmarked cols :=
  ⟨hne, fun c hc => (printsPlain_spec (hcols c hc)).1, fun c hc => isMark_of_plain (hcols c hc)⟩

/-- Where a list of columns is found around another list. -/
theorem infix_listText {names : List String} {before after : List Char} (hcols : Unmarked cols)
    (hnames : ∀ n ∈ names, ∀ c ∈ n.toList, isMark c = false) :
    (listText cols).toList <:+: before ++ ((listText names).toList ++ after) ↔
      (listText cols).toList <:+: before ∨ names = cols ∨ (listText cols).toList <:+: after := by
  obtain ⟨hopen, hclose⟩ := intercalate_parens hcols.marks
  obtain ⟨hopen', hclose'⟩ := intercalate_parens hnames
  have htext : before ++ ((listText names).toList ++ after) = before ++ '(' ::
      (", ".toList.intercalate (names.map String.toList) ++ ')' :: after) := by
    rw [listText_toList]
    simp
  rw [htext, listText_toList cols,
    Delimited.infix_bracketed (by decide) hopen hclose hopen' hclose']
  refine or_congr Iff.rfl (or_congr ?_ Iff.rfl)
  constructor
  · intro h
    exact (listText_inj hcols.nonempty (fun c hc => (not_mem_of_isMark (hcols.marks c hc)).2.2)
      (fun n hn => (not_mem_of_isMark (hnames n hn)).2.2) hcols.named h).symm
  · rintro rfl
    rfl

theorem map_quoteIdentifier_iff {names : List String} (hcols : ∀ c ∈ cols, printsPlain c) :
    names.map quoteIdentifier = cols ↔ names = cols := by
  constructor
  · rintro rfl
    symm
    refine (List.map_congr_left fun n hn => ?_).trans (List.map_id names)
    exact ((quoteIdentifier_eq_iff (hcols _ (List.mem_map_of_mem hn))).mp rfl).symm
  · rintro rfl
    refine (List.map_congr_left fun n hn => ?_).trans (List.map_id names)
    exact (quoteIdentifier_eq_iff (hcols n hn)).mpr rfl

/-- Where a definition of plain lists shows a list of columns. -/
theorem text_contains_iff (hplain : d.PlainLists) (hcols : Unmarked cols) :
    textContains (d.text schema table) (listText cols) ↔
      textContains (d.head schema table) (listText cols) ∨
      d.keys.map IndexKey.text = cols ∨ d.included.map quoteIdentifier = cols ∨
      textContains d.rest (listText cols) := by
  have hkeys : ∀ n ∈ d.keys.map IndexKey.text, ∀ c ∈ n.toList, isMark c = false := by
    intro n hn
    obtain ⟨k, hk, rfl⟩ := List.mem_map.mp hn
    exact (hplain.keys k hk).2
  have htail : (listText cols).toList <:+: d.includeText.toList ++ d.rest.toList ↔
      d.included.map quoteIdentifier = cols ∨ (listText cols).toList <:+: d.rest.toList := by
    unfold IndexDef.includeText
    split
    next hnone =>
      have hother : d.included.map quoteIdentifier ≠ cols := by
        rw [hnone]
        exact hcols.nonempty.symm
      exact (or_iff_right hother).symm
    next =>
      have hincluded : ∀ n ∈ d.included.map quoteIdentifier, ∀ c ∈ n.toList, isMark c = false := by
        intro n hn
        obtain ⟨m, hm, rfl⟩ := List.mem_map.mp hn
        exact hplain.included m hm
      have hword : ¬ (listText cols).toList <:+: " INCLUDE ".toList := by
        intro hin
        have hparen : '(' ∈ (listText cols).toList := by simp [listText_toList]
        exact absurd (hin.subset hparen) (by decide)
      rw [String.toList_append, List.append_assoc, infix_listText hcols hincluded]
      exact or_iff_right hword
  simp only [textContains_iff]
  rw [← htail, ← infix_listText hcols hkeys]
  simp only [IndexDef.text, String.toList_append, List.append_assoc]

/-- It shows its keys only exactly if these are the columns or nothing else in it is their list. -/
theorem showsOnlyKeys_iff (hplain : d.PlainLists) (hne : cols ≠ [])
    (hcols : ∀ c ∈ cols, printsPlain c) : d.ShowsOnlyKeys schema table cols ↔
      d.keyColumns = some cols ∨
      textContains (d.head schema table) (listText cols) = false ∧ d.included ≠ cols ∧
        textContains d.rest (listText cols) = false := by
  have hkeys : d.keys.map IndexKey.text = cols → d.keyColumns = some cols :=
    mapM_column?_of_texts (fun k hk => (hplain.keys k hk).1) hcols
  rw [IndexDef.ShowsOnlyKeys, text_contains_iff hplain (unmarked_of_plain hne hcols),
    map_quoteIdentifier_iff hcols]
  constructor
  · intro h
    by_cases hright : d.keyColumns = some cols
    · exact .inl hright
    · have hnone := mt h hright
      simp only [not_or, Bool.not_eq_true] at hnone
      exact .inr ⟨hnone.1, hnone.2.2.1, hnone.2.2.2⟩
  · rintro (hright | ⟨hhead, hincluded, hrest⟩)
    · exact fun _ => hright
    · rw [hhead, hrest]
      rintro (h | h | h | h)
      · cases h
      · exact hkeys h
      · exact absurd h hincluded
      · cases h

end Lists

namespace PhysicalTable

section

variable (t : PhysicalTable)

/-- The column has the key's type, generated or not as asked. -/
def HasColumn (col : String) (keyType : KeyType) (generated : Bool) : Prop :=
  ∃ c ∈ t.columns, c.name = col ∧ c.dataType = keyType.columnType.dataType ∧
    (c.isGenerated = "ALWAYS" ↔ generated = true)

def HasJsonb (col : String) : Prop :=
  ∃ c ∈ t.columns, c.name = col ∧ c.dataType = "jsonb" ∧ c.isGenerated ≠ "ALWAYS"

structure KeysRight (e : CatalogEntry) : Prop where
  columns : ∀ k ∈ e.baseKey, t.HasColumn k.1 k.2 true
  primaryKey : t.primaryKey = e.baseKey.map Prod.fst

def BaseRight (e : CatalogEntry) : Prop := t.HasJsonb e.jsonbCol ∧ t.KeysRight e

def HasIndex (name : String) (cols : List String) : Prop :=
  ∃ d ∈ t.indexes, d.name = name ∧ d.keyColumns = some cols

def HasLsiColumns (l : LsiSpec) : Prop := t.HasColumn l.sortPgCol l.sortType true

def HasGsiColumns (g : GsiSpec) : Prop :=
  ∀ c ∈ g.cols, t.HasColumn c.col c.keyType (g.mode = .generated)

/-- A verdict that says no more than the table has. -/
structure Sound (e : CatalogEntry) (verdict : ReconcileVerdict) : Prop where
  table : verdict.status = .active → verdict.serveable = true → t.BaseRight e
  lsis : ∀ l ∈ verdict.lsis, l.serveable = true →
    t.BaseRight e ∧ t.HasLsiColumns l ∧ t.HasIndex l.indexName [e.pkAttr, l.sortPgCol]
  gsis : ∀ g ∈ verdict.gsis, g.serveable = true →
    t.BaseRight e ∧ t.HasGsiColumns g ∧ t.HasIndex g.indexName g.columns

/-- The JSONB column is there if the keys are right; and the definition of an index with the name of
an LSI or a GSI whose columns are right shows their text for its keys only. -/
structure Legible (schema : String) (e : CatalogEntry) : Prop where
  jsonb : t.KeysRight e → ∃ c ∈ t.columns, c.name = e.jsonbCol
  lsis : t.BaseRight e → ∀ l ∈ e.lsis, t.HasLsiColumns l →
    ∀ d ∈ t.indexes, d.name = l.indexName →
      d.ShowsOnlyKeys schema e.pgTable [e.pkAttr, l.sortPgCol]
  gsis : t.BaseRight e → ∀ g ∈ e.gsis, t.HasGsiColumns g →
    ∀ d ∈ t.indexes, d.name = g.indexName → d.ShowsOnlyKeys schema e.pgTable g.columns

end

variable {t : PhysicalTable} {e : CatalogEntry} {schema col : String} {keyType : KeyType}

theorem column?_eq_some_iff {c : RawColumn} :
    t.column? col = some c ↔ c ∈ t.columns ∧ c.name = col := find?_key_iff t.columnsApart

theorem checkColumnWithMode_none {mustBeGenerated : Bool} :
    checkColumnWithMode t.view col keyType mustBeGenerated = none ↔
      t.HasColumn col keyType mustBeGenerated := by
  rw [checkColumnWithMode_none_iff, view]
  constructor
  · rintro ⟨info, hinfo, htype, hgenerated⟩
    obtain ⟨c, hc, rfl⟩ := Option.map_eq_some_iff.mp hinfo
    obtain ⟨hmem, hname⟩ := column?_eq_some_iff.mp hc
    exact ⟨c, hmem, hname, htype, hgenerated⟩
  · rintro ⟨c, hmem, hname, htype, hgenerated⟩
    exact ⟨_, Option.map_eq_some_iff.mpr ⟨c, column?_eq_some_iff.mpr ⟨hmem, hname⟩, rfl⟩, htype,
      hgenerated⟩

theorem checkJsonbColumn_none :
    checkJsonbColumn t.view col = none ↔ (∀ c ∈ t.columns, c.name ≠ col) ∨ t.HasJsonb col := by
  have hcol : t.HasJsonb col ↔ ∃ c, t.column? col = some c ∧ c.dataType = "jsonb" ∧
      c.isGenerated ≠ "ALWAYS" := by
    simp only [HasJsonb, column?_eq_some_iff, and_assoc]
  rw [hcol, checkJsonbColumn, view]
  cases hc : t.column? col with
  | none =>
    have hnone := List.find?_eq_none.mp hc
    simp only [decide_eq_true_eq] at hnone
    simpa using hnone
  | some c =>
    obtain ⟨hmem, hname⟩ := column?_eq_some_iff.mp hc
    have hthere : ¬ ∀ c ∈ t.columns, c.name ≠ col := fun hall => hall c hmem hname
    by_cases htype : c.dataType = "jsonb" <;> simp [htype, hthere]

theorem baseReason_none : t.baseReason e = none ↔
    ((∀ c ∈ t.columns, c.name ≠ e.jsonbCol) ∨ t.HasJsonb e.jsonbCol) ∧ t.KeysRight e := by
  have hnames : e.baseKey.map Prod.fst = e.pkAttr :: (e.sk.map Prod.fst).toList := by
    cases hsk : e.sk <;> simp [CatalogEntry.baseKey, hsk]
  have hkeys : t.KeysRight e ↔ t.HasColumn e.pkAttr e.pkType true ∧
      (∀ sk, e.sk = some sk → t.HasColumn sk.1 sk.2 true) ∧
      t.primaryKey = e.baseKey.map Prod.fst := by
    constructor
    · rintro ⟨hcols, hpk⟩
      obtain ⟨hfirst, hrest⟩ := List.forall_mem_cons.mp hcols
      exact ⟨hfirst, fun sk hsk => hrest sk (Option.mem_toList.mpr hsk), hpk⟩
    · rintro ⟨hfirst, hrest, hpk⟩
      exact ⟨List.forall_mem_cons.mpr ⟨hfirst, fun k hk => hrest k (Option.mem_toList.mp hk)⟩, hpk⟩
  rw [hkeys, ← checkJsonbColumn_none, baseReason, checkBase, hnames]
  simp only [Option.or_eq_none_iff, checkKeyColumn, checkColumnWithMode_none,
    Option.bind_eq_none_iff]
  by_cases hpk : t.primaryKey = e.pkAttr :: (e.sk.map Prod.fst).toList <;> simp [hpk]

theorem indexDefs_contains {table indexName expected : String} :
    (∃ indexDef, t.indexDefs schema table indexName = some indexDef ∧
      textContains indexDef expected) ↔ ∃ d ∈ t.indexes,
      d.name = indexName ∧ textContains (d.text schema table) expected := by
  simp only [← and_assoc, ← find?_key_iff t.indexesApart, indexDefs, Option.map_eq_some_iff,
    exists_exists_and_eq_and]

theorem lsiReason_none {l : LsiSpec} : t.lsiReason schema e l = none ↔ t.HasLsiColumns l ∧
    ∃ d ∈ t.indexes, d.name = l.indexName ∧
      textContains (d.text schema e.pgTable) (listText [e.pkAttr, l.sortPgCol]) := by
  rw [lsiReason, checkLsi_none_iff, checkKeyColumn, checkColumnWithMode_none, indexDefs_contains,
    listText_pair, HasLsiColumns]

theorem gsiReason_none {g : GsiSpec} : t.gsiReason schema e g = none ↔ t.HasGsiColumns g ∧
    ∃ d ∈ t.indexes, d.name = g.indexName ∧
      textContains (d.text schema e.pgTable) (listText g.columns) := by
  rw [gsiReason, checkGsi_none_iff, indexDefs_contains, listText_columns]
  simp only [checkGsiColumn, checkColumnWithMode_none, HasGsiColumns]

theorem introspect_of_none (h : t.baseReason e = none) : t.introspect schema e =
    ⟨.active, true, none, e.lsis.map fun l => l.judged (t.lsiReason schema e l),
      e.gsis.map fun g => g.judged (t.gsiReason schema e g)⟩ := by
  have hthere : t.columns ≠ [] := by
    obtain ⟨c, hc, _⟩ := (baseReason_none.mp h).2.columns _ List.mem_cons_self
    exact List.ne_nil_of_mem hc
  have htable : tableReason (t.columns ≠ []) e.pgTable (t.baseReason e) = none := by
    rw [tableReason, if_pos (decide_eq_true hthere), h]
    rfl
  rw [introspect, htable]
  rfl

/-- A table that does not serve makes every verdict sound. -/
theorem introspect_of_some (h : t.baseReason e ≠ none) : t.Sound e (t.introspect schema e) := by
  have htable : (tableReason (t.columns ≠ []) e.pgTable (t.baseReason e)).isSome := by
    obtain ⟨reason, hreason⟩ := Option.ne_none_iff_exists'.mp h
    rw [tableReason, hreason]
    split <;> rfl
  obtain ⟨⟨reason, inner⟩, hreason⟩ := Option.isSome_iff_exists.mp htable
  rw [introspect, hreason]
  refine ⟨?_, ?_, ?_⟩
  · intro hactive
    cases hactive
  · intro l hl hserve
    obtain ⟨_, _, rfl⟩ := List.mem_map.mp hl
    cases hserve
  · intro g hg hserve
    obtain ⟨_, _, rfl⟩ := List.mem_map.mp hg
    cases hserve

/-- An index found by the text of its columns has them as keys exactly if no index of its name shows
that text otherwise. -/
theorem hasIndex_iff {table name : String} {cols : List String} :
    ((∃ d ∈ t.indexes, d.name = name ∧
        textContains (d.text schema table) (listText cols)) → t.HasIndex name cols) ↔
      ∀ d ∈ t.indexes, d.name = name → d.ShowsOnlyKeys schema table cols := by
  constructor
  · intro h d hd hname hshown
    obtain ⟨d', hd', hname', hkeys⟩ := h ⟨d, hd, hname, hshown⟩
    rwa [List.inj_on_of_nodup_map t.indexesApart hd hd' (hname.trans hname'.symm)]
  · rintro h ⟨d, hd, hname, hshown⟩
    exact ⟨d, hd, hname, h d hd hname hshown⟩

theorem sound_iff_legible : t.Sound e (t.introspect schema e) ↔ t.Legible schema e := by
  by_cases hbase : t.baseReason e = none
  · obtain ⟨hjsonb, hkeys⟩ := baseReason_none.mp hbase
    rw [introspect_of_none hbase]
    constructor
    · rintro ⟨htable, hlsis, hgsis⟩
      refine ⟨fun _ => ?_, fun _ l hl hcols => hasIndex_iff.mp fun hfound => ?_,
        fun _ g hg hcols => hasIndex_iff.mp fun hfound => ?_⟩
      · obtain ⟨⟨c, hc, hname, _⟩, _⟩ := htable rfl rfl
        exact ⟨c, hc, hname⟩
      · have hreason := lsiReason_none.mpr ⟨hcols, hfound⟩
        exact (hlsis _ (List.mem_map_of_mem hl) (by rw [hreason]; rfl)).2.2
      · have hreason := gsiReason_none.mpr ⟨hcols, hfound⟩
        exact (hgsis _ (List.mem_map_of_mem hg) (by rw [hreason]; rfl)).2.2
    · rintro ⟨hthere, hlsis, hgsis⟩
      have hright : t.BaseRight e := by
        obtain ⟨c, hc, hname⟩ := hthere hkeys
        rcases hjsonb with hmissing | hjsonb
        · exact absurd hname (hmissing c hc)
        · exact ⟨hjsonb, hkeys⟩
      refine ⟨fun _ _ => hright, ?_, ?_⟩
      · intro l' hl' hserve
        obtain ⟨l, hl, rfl⟩ := List.mem_map.mp hl'
        obtain ⟨hcols, hfound⟩ := lsiReason_none.mp (Option.isNone_iff_eq_none.mp hserve)
        exact ⟨hright, hcols, hasIndex_iff.mpr (hlsis hright l hl hcols) hfound⟩
      · intro g' hg' hserve
        obtain ⟨g, hg, rfl⟩ := List.mem_map.mp hg'
        obtain ⟨hcols, hfound⟩ := gsiReason_none.mp (Option.isNone_iff_eq_none.mp hserve)
        exact ⟨hright, hcols, hasIndex_iff.mpr (hgsis hright g hg hcols) hfound⟩
  · have hwrong : ¬ t.BaseRight e := fun h => hbase (baseReason_none.mpr ⟨.inr h.1, h.2⟩)
    refine ⟨fun _ => ⟨fun hkeys => ?_, fun h => absurd h hwrong, fun h => absurd h hwrong⟩,
      fun _ => introspect_of_some hbase⟩
    by_contra hmissing
    refine hbase (baseReason_none.mpr ⟨.inl ?_, hkeys⟩)
    intro c hc hname
    exact hmissing ⟨c, hc, hname⟩

/-- A verdict claims no more than the table has, exactly if the table is legible; and for plain
lists of plain columns it is, unless an index on other keys lists the columns in its INCLUDE clause,
or in its name, its table's name, or what follows the lists. -/
theorem introspect_sound_iff (schema : String) (t : PhysicalTable) (e : CatalogEntry) :
    (t.Sound e (t.introspect schema e) ↔ t.Legible schema e) ∧
    ∀ d ∈ t.indexes, d.PlainLists → ∀ cols ≠ [], (∀ c ∈ cols, printsPlain c = true) →
      (d.ShowsOnlyKeys schema e.pgTable cols ↔ d.keyColumns = some cols ∨
        textContains (d.head schema e.pgTable) (listText cols) = false ∧ d.included ≠ cols ∧
          textContains d.rest (listText cols) = false) :=
  ⟨sound_iff_legible, fun _ _ hplain _ hne hcols => showsOnlyKeys_iff hplain hne hcols⟩

end PhysicalTable

def datedEntry : CatalogEntry :=
  ⟨"rekt_t_orders", "id", .s, some ("no", .n), "data",
    [⟨"by-at", "at", .s, "at", "rekt_t_orders_lsi_by_at_idx", true, none⟩], []⟩

def intactTable : PhysicalTable where
  columns := [⟨"data", "jsonb", "NEVER"⟩, ⟨"id", "text", "ALWAYS"⟩, ⟨"no", "numeric", "ALWAYS"⟩,
    ⟨"at", "text", "ALWAYS"⟩]
  primaryKey := ["id", "no"]
  indexes := [⟨"rekt_t_orders_lsi_by_at_idx", false, "btree", [.column "id" [], .column "at" []],
    ["data"], ""⟩]
  columnsApart := by decide
  indexesApart := by decide

theorem introspect_sound_intact :
    intactTable.Sound datedEntry (intactTable.introspect "public" datedEntry) ∧
    ∀ d ∈ intactTable.indexes, d.ShowsOnlyKeys "public" "rekt_t_orders" ["id", "at"] := by
  have hplain : ∀ c ∈ ["id", "at", "data"], printsPlain c = true := by decide +kernel
  have hmarks : ∀ c ∈ ["id", "at", "data"], ∀ a ∈ c.toList, isMark a = false :=
    fun c hc => isMark_of_plain (hplain c hc)
  have hkeys : ∀ c ∈ ["id", "at"], c ∈ ["id", "at", "data"] := by decide
  have hshows : ∀ d ∈ intactTable.indexes, d.ShowsOnlyKeys "public" "rekt_t_orders" ["id", "at"] := by
    intro d hd
    have hlists : d.PlainLists := by
      obtain rfl := List.mem_singleton.mp hd
      exact @plainLists_of_names _ ["id", "at"] rfl (fun c hc => hmarks c (hkeys c hc))
        (fun c hc => hmarks c (List.mem_cons_of_mem _ (List.mem_cons_of_mem _ hc)))
    refine ((PhysicalTable.introspect_sound_iff "public" intactTable datedEntry).2 d hd hlists
      ["id", "at"] (List.cons_ne_nil _ _) fun c hc => hplain c (hkeys c hc)).mpr (.inl ?_)
    obtain rfl := List.mem_singleton.mp hd
    rfl
  refine ⟨(PhysicalTable.introspect_sound_iff "public" intactTable datedEntry).1.mpr
    ⟨fun _ => ⟨_, List.mem_cons_self, rfl⟩, ?_, nofun⟩, hshows⟩
  intro _ l hl _ d hd _
  obtain rfl := List.mem_singleton.mp hl
  exact hshows d hd

/-- No JSONB column, and an index on `at` alone that includes both columns. -/
def driftedTable : PhysicalTable where
  columns := [⟨"id", "text", "ALWAYS"⟩, ⟨"no", "numeric", "ALWAYS"⟩, ⟨"at", "text", "ALWAYS"⟩]
  primaryKey := ["id", "no"]
  indexes := [⟨"rekt_t_orders_lsi_by_at_idx", false, "btree", [.column "at" []], ["id", "at"], ""⟩]
  columnsApart := by decide
  indexesApart := by decide

theorem drift_passes_as_active :
    let verdict := driftedTable.introspect "public" datedEntry
    verdict.status = .active ∧ verdict.serveable = true ∧
    verdict.lsis.map LsiSpec.serveable = [true] ∧
    driftedTable.column? "data" = none ∧
    driftedTable.indexes.map IndexDef.keyColumns = [some ["at"]] := by
  have hbase : driftedTable.baseReason datedEntry = none := by decide
  have hcols : ∀ c ∈ ["id", "at"], printsPlain c = true := by decide +kernel
  have hmarks : ∀ c ∈ ["id", "at"], ∀ a ∈ c.toList, isMark a = false :=
    fun c hc => isMark_of_plain (hcols c hc)
  have hplain : ∀ d ∈ driftedTable.indexes, d.PlainLists := by
    intro d hd
    obtain rfl := List.mem_singleton.mp hd
    exact @plainLists_of_names _ ["at"] rfl (fun c hc => hmarks c (List.mem_cons_of_mem _ hc)) hmarks
  have hlsi : ∀ l ∈ datedEntry.lsis, driftedTable.lsiReason "public" datedEntry l = none := by
    intro l hl
    obtain rfl := mem_singleton.mp hl
    refine PhysicalTable.lsiReason_none.mpr ⟨PhysicalTable.checkColumnWithMode_none.mp (by decide),
      _, mem_cons_self, rfl, ?_⟩
    exact (text_contains_iff (hplain _ mem_cons_self)
      (unmarked_of_plain (cons_ne_nil _ _) hcols)).mpr
      (.inr (.inr (.inl ((map_quoteIdentifier_iff hcols).mpr rfl))))
  rw [PhysicalTable.introspect_of_none hbase]
  refine ⟨rfl, rfl, ?_, by decide, by decide⟩
  rw [map_map]
  refine (map_congr_left fun l hl => ?_).trans (rfl : datedEntry.lsis.map (fun _ => true) = _)
  exact congrArg Option.isNone (hlsi l hl)

end Rektifier
