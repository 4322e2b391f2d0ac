import Rektifier.ArrayLiteral
import Rektifier.CreateValidation

namespace Rektifier

open SqlLiteral List

/-- `'{attr,T}'`, put into the SQL as it is. -/
def pathLiteral (attr : String) (t : KeyType) : String :=
  "'\x7b" ++ attr ++ "," ++ t.tag ++ "\x7d'"

def generatedExpr (attr : String) (t : KeyType) : String :=
  match t with
  | .s => "(data #>> " ++ pathLiteral attr t ++ ")"
  | .n => "((data #>> " ++ pathLiteral attr t ++ ")::numeric)"
  | .b => "decode(data #>> " ++ pathLiteral attr t ++ ", 'base64')"

def quoteIdent (ident : String) : String :=
  "\"" ++ String.ofList (double '"' ident.toList) ++ "\""

def dualWriteExtractExpr (itemParam : Nat) (c : DualWriteCol) : String :=
  let param := "$" ++ toString itemParam ++ "::jsonb"
  match c.keyType with
  | .s => "(" ++ param ++ " #>> " ++ pathLiteral c.attr .s ++ ")"
  | .n => "(" ++ param ++ " #>> " ++ pathLiteral c.attr .n ++ ")::numeric"
  | .b => "decode((" ++ param ++ " #>> " ++ pathLiteral c.attr .b ++ "), 'base64')"

def dualWriteSetFromParam (param : Nat) (c : DualWriteCol) : String :=
  quoteIdent c.col ++ " = " ++ dualWriteExtractExpr param c

/-- As the other SET clauses and the backfill write it. -/
def extractFrom (jsonb : String) (attr : String) : KeyType → String
  | .s => jsonb ++ " #>> " ++ pathLiteral attr .s
  | .n => "(" ++ jsonb ++ " #>> " ++ pathLiteral attr .n ++ ")::numeric"
  | .b => "decode(" ++ jsonb ++ " #>> " ++ pathLiteral attr .b ++ ", 'base64')"

def dualWriteSetExcluded (c : DualWriteCol) (jsonbCol : String) : String :=
  quoteIdent c.col ++ " = " ++ extractFrom ("EXCLUDED." ++ jsonbCol) c.attr c.keyType

def dualWriteSetFromExpr (newJsonb : String) (c : DualWriteCol) : String :=
  quoteIdent c.col ++ " = " ++ extractFrom ("(" ++ newJsonb ++ ")") c.attr c.keyType

/-- The same text in the backfill and in the drift check. -/
def extractSql (attr : String) (t : KeyType) : String := extractFrom "data" attr t

inductive ExtractSite where
  | generated
  | insertParam (itemParam : Nat)
  | setFromParam (param : Nat)
  | setExcluded (jsonbCol : String)
  | setFromExpr (newJsonb : String)
  | backfillOrDrift

def ExtractSite.text (c : DualWriteCol) : ExtractSite → String
  | .generated => generatedExpr c.attr c.keyType
  | .insertParam p => dualWriteExtractExpr p c
  | .setFromParam p => dualWriteSetFromParam p c
  | .setExcluded jsonbCol => dualWriteSetExcluded c jsonbCol
  | .setFromExpr newJsonb => dualWriteSetFromExpr newJsonb c
  | .backfillOrDrift => extractSql c.attr c.keyType

/-- What stands before and behind the path. -/
def ExtractSite.frame (col : String) (t : KeyType) : ExtractSite → String × String
  | .generated => match t with
    | .s => ("(data #>> ", ")")
    | .n => ("((data #>> ", ")::numeric)")
    | .b => ("decode(data #>> ", ", 'base64')")
  | .insertParam p => paramFrame "" p t
  | .setFromParam p => paramFrame (quoteIdent col ++ " = ") p t
  | .setExcluded jsonbCol => exprFrame (quoteIdent col ++ " = ") ("EXCLUDED." ++ jsonbCol) t
  | .setFromExpr newJsonb => exprFrame (quoteIdent col ++ " = ") ("(" ++ newJsonb ++ ")") t
  | .backfillOrDrift => exprFrame "" "data" t
where
  paramFrame (start : String) (p : Nat) (t : KeyType) : String × String :=
    let param := "$" ++ toString p ++ "::jsonb"
    match t with
    | .s => (start ++ "(" ++ param ++ " #>> ", ")")
    | .n => (start ++ "(" ++ param ++ " #>> ", ")::numeric")
    | .b => (start ++ "decode((" ++ param ++ " #>> ", "), 'base64')")
  exprFrame (start jsonb : String) (t : KeyType) : String × String :=
    match t with
    | .s => (start ++ jsonb ++ " #>> ", "")
    | .n => (start ++ "(" ++ jsonb ++ " #>> ", ")::numeric")
    | .b => (start ++ "decode(" ++ jsonb ++ " #>> ", ", 'base64')")

namespace ExtractSite

theorem dualWriteExtractExpr_eq (start : String) (p : Nat) (c : DualWriteCol) :
    start ++ dualWriteExtractExpr p c = (frame.paramFrame start p c.keyType).1
      ++ pathLiteral c.attr c.keyType ++ (frame.paramFrame start p c.keyType).2 := by
  obtain ⟨col, attr, t⟩ := c
  cases t <;> simp only [dualWriteExtractExpr, frame.paramFrame, String.append_assoc]

theorem extractFrom_eq (start jsonb attr : String) (t : KeyType) :
    start ++ extractFrom jsonb attr t = (frame.exprFrame start jsonb t).1
      ++ pathLiteral attr t ++ (frame.exprFrame start jsonb t).2 := by
  cases t with
  | s => simp only [extractFrom, frame.exprFrame, String.append_assoc, String.append_empty]
  | n | b => simp only [extractFrom, frame.exprFrame, String.append_assoc]

theorem text_eq (site : ExtractSite) (c : DualWriteCol) : site.text c =
    (site.frame c.col c.keyType).1 ++ pathLiteral c.attr c.keyType
      ++ (site.frame c.col c.keyType).2 := by
  cases site with
  | generated =>
    simp only [text, frame]
    cases c.keyType <;> rfl
  | insertParam p => exact (String.empty_append).symm.trans (dualWriteExtractExpr_eq "" p c)
  | setFromParam p => exact dualWriteExtractExpr_eq _ p c
  | setExcluded jsonbCol | setFromExpr newJsonb => exact extractFrom_eq _ _ c.attr c.keyType
  | backfillOrDrift => exact (String.empty_append).symm.trans (extractFrom_eq "" _ c.attr c.keyType)

end ExtractSite

/-- `data #> path`; a NULL in the path finds nothing. -/
def extractAt (data : Json) : List Elem → Option Json
  | [] => some data
  | .null :: _ => none
  | .text k :: rest => (data.get (String.ofList k)).bind fun v => extractAt v rest

/-- The literal opens behind the fixed text, is complete where the fixed text goes on, has the value
`[attr, T]`, and so reads that attribute. -/
def ReadsAttr (site : ExtractSite) (c : DualWriteCol) (statement : String) : Prop :=
  ∃ rest content path,
    (site.text c ++ statement).toList = (site.frame c.col c.keyType).1.toList ++ '\'' :: rest ∧
    body '\'' rest = some (content, ((site.frame c.col c.keyType).2 ++ statement).toList) ∧
    arrayIn content = some path ∧ path = [.text c.attr.toList, .text c.keyType.tag.toList] ∧
    ∀ data, (extractAt data path).bind Json.asStr = extractText data c.attr c.keyType.tag

/-- No character with a meaning in either syntax, no blank at the ends, not the word NULL. -/
def plainAttr (attr : String) : Bool :=
  let cs := attr.toList
  cs.all (fun c => ordinary c && c ≠ '\'' && c ≠ '\x00') && cs.head?.any (fun c => !isSpace c)
    && cs.getLast?.any (fun c => !isSpace c) && cs.map Char.toLower ≠ ['n', 'u', 'l', 'l']

theorem plainAttr_iff (attr : String) : plainAttr attr ↔
    PlainElem attr.toList ∧ '\'' ∉ attr.toList ∧ '\x00' ∉ attr.toList := by
  simp only [plainAttr, Bool.and_eq_true, all_eq_true, decide_eq_true_eq, Option.any_eq_true,
    Bool.not_eq_true']
  constructor
  · rintro ⟨⟨⟨hall, c, hhead, hspace⟩, d, hlast, hspace'⟩, hnull⟩
    obtain ⟨cs, hcs⟩ := List.head?_eq_some_iff.mp hhead
    refine ⟨⟨fun c hc => (hall c hc).1.1, ⟨c, cs, hcs, hspace⟩, ?_, hnull⟩,
      fun h => (hall _ h).1.2 rfl, fun h => (hall _ h).2 rfl⟩
    refine rdropWhile_eq_self_iff.mpr ?_
    intro hne
    rw [List.getLast?_eq_some_getLast hne] at hlast
    rw [Option.some.inj hlast, hspace']
    decide
  · rintro ⟨hplain, hquote, hzero⟩
    obtain ⟨c, cs, hcs, hspace⟩ := hplain.first
    have hne : attr.toList ≠ [] := by
      rw [hcs]
      exact cons_ne_nil _ _
    have hend := rdropWhile_eq_self_iff.mp hplain.last hne
    refine ⟨⟨⟨?_, c, by rw [hcs]; rfl, hspace⟩, _, List.getLast?_eq_some_getLast hne, ?_⟩,
      hplain.notNull⟩
    · exact fun x hx => ⟨⟨hplain.ordinary x hx, fun h => hquote (h ▸ hx)⟩, fun h => hzero (h ▸ hx)⟩
    · simpa using hend

theorem plainElem_tag (t : KeyType) : PlainElem t.tag.toList ∧ '\'' ∉ t.tag.toList ∧
    '\x00' ∉ t.tag.toList := by
  refine (plainAttr_iff t.tag).mp ?_
  cases t <;> decide

theorem extractAt_pair (data : Json) (attr tag : String) :
    (extractAt data [.text attr.toList, .text tag.toList]).bind Json.asStr
      = extractText data attr tag := by
  simp only [extractAt, extractText, String.ofList_toList]
  cases data.get attr with
  | none => rfl
  | some v => cases h : v.get tag <;> simp [h]

theorem pathLiteral_toList (attr : String) (t : KeyType) : (pathLiteral attr t).toList =
    '\'' :: ('\x7b' :: (attr.toList ++ ',' :: t.tag.toList ++ ['\x7d']) ++ ['\'']) := by
  simp [pathLiteral]

theorem frame_after (site : ExtractSite) (col : String) (t : KeyType) :
    (site.frame col t).2.toList.head? ≠ some '\'' := by
  cases site <;> cases t <;>
    dsimp only [ExtractSite.frame, ExtractSite.frame.paramFrame, ExtractSite.frame.exprFrame] <;>
    decide

theorem ExtractSite.text_toList (site : ExtractSite) (c : DualWriteCol) (statement : String) :
    (site.text c ++ statement).toList = (site.frame c.col c.keyType).1.toList ++
      '\'' :: ('\x7b' :: (c.attr.toList ++ ',' :: c.keyType.tag.toList ++ ['\x7d']) ++
        '\'' :: ((site.frame c.col c.keyType).2 ++ statement).toList) := by
  rw [site.text_eq c]
  simp only [String.toList_append, pathLiteral_toList, append_assoc, cons_append,
    nil_append]

/-- Wherever the path of an attribute is written, it is read as that path and the statement goes on
behind it, exactly if the attribute name is plain. -/
theorem path_literal_read_iff (site : ExtractSite) (c : DualWriteCol) {statement : String}
    (hnext : statement.toList.head? ≠ some '\'') :
    ReadsAttr site c statement ↔ plainAttr c.attr = true := by
  obtain ⟨htag, hquote, hzero⟩ := plainElem_tag c.keyType
  have hafter : ((site.frame c.col c.keyType).2 ++ statement).toList.head? ≠ some '\'' := by
    have hframe := frame_after site c.col c.keyType
    rw [String.toList_append]
    cases h : (site.frame c.col c.keyType).2.toList with
    | nil => exact hnext
    | cons x xs =>
      rw [h] at hframe
      exact hframe
  have htext := site.text_toList c statement
  rw [plainAttr_iff, ← literal_pair_iff htag hquote hzero hafter]
  constructor
  · rintro ⟨rest, content, path, hsplit, hbody, harray, rfl, _⟩
    have hrest := append_cancel_left (htext.symm.trans hsplit)
    cases hrest
    exact ⟨content, hbody, harray⟩
  · rintro ⟨content, hbody, harray⟩
    exact ⟨_, content, _, htext, hbody, harray, rfl, fun data => extractAt_pair data _ _⟩

theorem path_literal_read_sample : ReadsAttr .generated ⟨"tag", "tag", .s⟩ " STORED" :=
  (path_literal_read_iff .generated ⟨"tag", "tag", .s⟩ (by decide)).mpr (by decide)

def hashRequest (attr : String) : CreateTableRequest where
  tableName := "orders"
  keySchema := [⟨attr, "HASH"⟩]
  attributeDefinitions := [⟨attr, "S"⟩]
  globalSecondaryIndexes := none
  localSecondaryIndexes := none
  streamEnabled := none
  billingMode := none
  provisionedThroughput := none

def hashPlan (attr : String) : CreateTablePlan := ⟨"orders", attr, .s, none, [], []⟩

/-- A comma makes the path one of three elements, and a quote ends the literal, so that the rest of
the name is SQL. -/
theorem unescaped_attr_accepted :
    validateCreateTable (hashRequest "a,b") = .ok (hashPlan "a,b") ∧
    validateCreateTable (hashRequest "it's") = .ok (hashPlan "it's") ∧
    body '\'' ("\x7ba,b,S\x7d')".toList) = some ("\x7ba,b,S\x7d".toList, ")".toList) ∧
    arrayIn "\x7ba,b,S\x7d".toList
      = some [.text "a".toList, .text "b".toList, .text "S".toList] ∧
    generatedExpr "it's" .s = "(data #>> '\x7bit's,S\x7d')" ∧
    body '\'' ("\x7bit's,S\x7d')".toList) = some ("\x7bit".toList, "s,S\x7d')".toList) ∧
    ¬ ReadsAttr .generated ⟨"a,b", "a,b", .s⟩ "" ∧ ¬ ReadsAttr .generated ⟨"it's", "it's", .s⟩ "" := by
  refine ⟨rfl, rfl, by decide, by decide, by decide, by decide, ?_, ?_⟩
  · rintro ⟨rest, content, path, hsplit, hbody, harray, rfl, _⟩
    cases append_cancel_left ((ExtractSite.text_toList _ _ _).symm.trans hsplit)
    cases hbody
    cases harray
  · rintro ⟨rest, content, path, hsplit, hbody, harray, rfl, _⟩
    cases append_cancel_left ((ExtractSite.text_toList _ _ _).symm.trans hsplit)
    cases hbody

end Rektifier
