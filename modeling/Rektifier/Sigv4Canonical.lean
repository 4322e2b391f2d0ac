import Rektifier.Sigv4Spec
import Rektifier.Delimited

namespace Rektifier

open PercentCoding List

variable {c : Char}

section Path

theorem uriEncode_injective : Function.Injective uriEncode := encode_injective (by decide)

theorem not_mem_uriEncode (h : c ∈ ['\n', '&', '=']) (text : List Char) :
    c ∉ uriEncode text := by
  have hescaped : awsUriEncode (UInt8.ofNat c.toNat) ∧ c ≠ '%' ∧ c.isAlphanum = false := by
    simp only [mem_cons, not_mem_nil, or_false] at h
    rcases h with rfl | rfl | rfl
    · decide
    · decide
    · decide
  obtain ⟨hescape, hpercent, hdigit⟩ := hescaped
  exact not_mem_encode hescape hpercent hdigit text

/-- Slashes are left alone, so the segments could be encoded in one. -/
theorem intercalate_uriEncode (segments : List (List Char)) :
    ['/'].intercalate (segments.map uriEncode) = uriEncode (['/'].intercalate segments) := by
  have hslash : uriEncode ['/'] = ['/'] := by decide
  induction segments with
  | nil => rfl
  | cons segment segments ih =>
    cases segments with
    | nil => simp
    | cons next segments =>
      rw [map_cons, map_cons, intercalate_cons_cons, intercalate_cons_cons,
        ← map_cons, ih]
      simp only [uriEncode, encode_append] at hslash ⊢
      rw [hslash]

theorem encodePath_eq {path : String} (h : path ≠ "") :
    encodePath path = uriEncode path.toList := by
  rw [encodePath, if_neg h, intercalate_uriEncode, intercalate_splitOn]

theorem newline_not_mem_encodePath (path : String) : '\n' ∉ encodePath path := by
  by_cases h : path = ""
  · rw [encodePath, if_pos h]
    decide
  · rw [encodePath_eq h]
    exact not_mem_uriEncode (by decide) _

/-- Only the empty path is taken for another, the slash. -/
theorem encodePath_inj {path path' : String} (h : encodePath path = encodePath path') :
    path = path' ∨ path ∈ ["", "/"] ∧ path' ∈ ["", "/"] := by
  have hslash : encodePath "" = uriEncode "/".toList := by decide
  by_cases hempty : path = ""
  · by_cases hempty' : path' = ""
    · exact .inl (hempty.trans hempty'.symm)
    · rw [hempty, hslash, encodePath_eq hempty'] at h
      have hpath := String.toList_injective (uriEncode_injective h)
      exact .inr ⟨by simp [hempty], by simp [← hpath]⟩
  · by_cases hempty' : path' = ""
    · rw [hempty', hslash, encodePath_eq hempty] at h
      have hpath := String.toList_injective (uriEncode_injective h)
      exact .inr ⟨by simp [hpath], by simp [hempty']⟩
    · rw [encodePath_eq hempty, encodePath_eq hempty'] at h
      exact .inl (String.toList_injective (uriEncode_injective h))

end Path

section Query

variable (lib : Sigv4Lib) {query query' : String}

def encodePair (p : List Char × List Char) : List Char × List Char := (uriEncode p.1, uriEncode p.2)

def pairText (p : List Char × List Char) : List Char := p.1 ++ '=' :: p.2

def Sigv4Lib.sortedParams (query : String) : List (List Char × List Char) :=
  ((lib.decodedParams query).map encodePair).insertionSort
    fun a b => a.1 < b.1 ∨ a.1 = b.1 ∧ a.2 ≤ b.2

theorem canonicalQueryString_eq :
    lib.canonicalQueryString query = ['&'].intercalate ((lib.sortedParams query).map pairText) :=
  rfl

theorem mem_pairTexts {text : List Char} (h : text ∈ (lib.sortedParams query).map pairText) :
    ∃ p, text = pairText (encodePair p) := by
  obtain ⟨p, hp, rfl⟩ := mem_map.mp h
  obtain ⟨q, _, rfl⟩ := mem_map.mp ((mem_insertionSort _).mp hp)
  exact ⟨q, rfl⟩

theorem not_mem_pairText (h : c = '\n' ∨ c = '&') (p : List Char × List Char) :
    c ∉ pairText (encodePair p) := by
  have hc : c ∈ ['\n', '&', '='] ∧ c ≠ '=' := by
    rcases h with rfl | rfl
    · decide
    · decide
  simp [pairText, encodePair, not_mem_uriEncode hc.1, hc.2]

theorem newline_not_mem_canonicalQueryString : '\n' ∉ lib.canonicalQueryString query := by
  rw [canonicalQueryString_eq]
  refine Delimited.not_mem_intercalate (by decide) fun text htext => ?_
  obtain ⟨p, rfl⟩ := mem_pairTexts lib htext
  exact not_mem_pairText (.inl rfl) p

theorem pairText_encodePair_injective : Function.Injective fun p => pairText (encodePair p) := by
  intro p q h
  obtain ⟨hkey, hvalue⟩ := Delimited.split_at_first (not_mem_uriEncode (by decide) _)
    (not_mem_uriEncode (by decide) _) h
  exact Prod.ext (uriEncode_injective hkey) (uriEncode_injective hvalue)

/-- Sorting loses nothing but the order of the parameters. -/
theorem decodedParams_perm (h : lib.canonicalQueryString query = lib.canonicalQueryString query') :
    (lib.decodedParams query).Perm (lib.decodedParams query') := by
  have hparts : ∀ query, ∀ text ∈ (lib.sortedParams query).map pairText,
      text ≠ [] ∧ '&' ∉ text := by
    intro query text htext
    obtain ⟨p, rfl⟩ := mem_pairTexts lib htext
    exact ⟨by simp [pairText], not_mem_pairText (.inr rfl) p⟩
  have htexts : (lib.sortedParams query).map pairText = (lib.sortedParams query').map pairText :=
    Delimited.intercalate_inj_of_ne_nil (hparts query) (hparts query') h
  have hsorted : ∀ query, ((lib.sortedParams query).map pairText).Perm
      ((lib.decodedParams query).map fun p => pairText (encodePair p)) := by
    intro query
    have hperm := (perm_insertionSort (fun a b : List Char × List Char =>
      a.1 < b.1 ∨ a.1 = b.1 ∧ a.2 ≤ b.2) ((lib.decodedParams query).map encodePair)).map pairText
    rwa [map_map] at hperm
  refine (map_perm_map_iff pairText_encodePair_injective).mp ?_
  exact (hsorted query).symm.trans ((List.Perm.of_eq htexts).trans (hsorted query'))

end Query

section Headers

variable {value value' : List UInt8} {text : String}

theorem visible_toNat {b : UInt8} (h : isVisibleAscii b) :
    (Char.ofNat b.toNat).toNat = b.toNat ∧ Char.ofNat b.toNat ≠ '\n' := by
  have hall : ∀ n < 256, isVisibleAscii (UInt8.ofNat n) →
      (Char.ofNat n).toNat = n ∧ Char.ofNat n ≠ '\n' := by
    decide +kernel
  have hb := hall b.toNat b.toNat_lt
  rw [UInt8.ofNat_toNat] at hb
  exact hb h

theorem headerText_eq_some (h : headerText value = some text) :
    (∀ b ∈ value, isVisibleAscii b) ∧
      text.toList = value.map fun b => Char.ofNat b.toNat := by
  unfold headerText at h
  split at h
  · next hvisible =>
    refine ⟨all_eq_true.mp hvisible, ?_⟩
    rw [← Option.some.inj h, String.toList_ofList]
  · cases h

theorem headerText_inj (h : headerText value = some text) (h' : headerText value' = some text) :
    value = value' := by
  have hcodes : ∀ v, headerText v = some text → v.map UInt8.toNat = text.toList.map Char.toNat := by
    intro v hv
    obtain ⟨hvisible, htext⟩ := headerText_eq_some hv
    rw [htext, map_map]
    exact map_congr_left fun b hb => (visible_toNat (hvisible b hb)).1.symm
  have hinjective : Function.Injective UInt8.toNat := fun _ _ => UInt8.toNat_inj.mp
  exact map_injective_iff.mpr hinjective ((hcodes _ h).trans (hcodes _ h').symm)

theorem newline_not_mem_headerText (h : headerText value = some text) : '\n' ∉ text.toList := by
  obtain ⟨hvisible, htext⟩ := headerText_eq_some h
  intro hmem
  rw [htext] at hmem
  obtain ⟨b, hb, hnewline⟩ := mem_map.mp hmem
  exact (visible_toNat (hvisible b hb)).2 hnewline

theorem mem_collapseBlanks {prevBlank : Bool} {chars : List Char}
    (h : c ∈ collapseBlanks prevBlank chars) : c = ' ' ∨ c ∈ chars := by
  induction chars generalizing prevBlank with
  | nil => simp [collapseBlanks] at h
  | cons d chars ih =>
    unfold collapseBlanks at h
    split at h
    · split at h
      · exact (ih h).imp_right (mem_cons_of_mem d)
      · rcases mem_cons.mp h with rfl | h
        · exact .inl rfl
        · exact (ih h).imp_right (mem_cons_of_mem d)
    · rcases mem_cons.mp h with rfl | h
      · exact .inr mem_cons_self
      · exact (ih h).imp_right (mem_cons_of_mem d)

theorem mem_trimCollapse {chars : List Char} (h : c ∈ trimCollapse chars) :
    c = ' ' ∨ c ∈ chars := by
  refine (mem_collapseBlanks h).imp_right fun hmem => ?_
  have hfront := (List.rdropWhile_prefix _ _).subset hmem
  exact (dropWhile_sublist _).subset hfront

theorem newline_not_mem_joinValue {joined : List Char} (h : '\n' ∉ joined) (value : List UInt8) :
    '\n' ∉ joinValue joined value := by
  have hvalue : '\n' ∉ trimCollapse ((headerText value).getD "").toList := by
    intro hmem
    rcases mem_trimCollapse hmem with hblank | hmem
    · exact absurd hblank (by decide)
    · cases hv : headerText value with
      | none => simp [hv] at hmem
      | some text =>
        rw [hv] at hmem
        exact newline_not_mem_headerText hv hmem
  unfold joinValue
  split
  · simp [h, hvalue]
  · simp [h, hvalue]

theorem newline_not_mem_joinValues (values : List (List UInt8)) : '\n' ∉ joinValues values := by
  have hfold : ∀ (values : List (List UInt8)) (joined : List Char), '\n' ∉ joined →
      '\n' ∉ values.foldl joinValue joined := by
    intro values
    induction values with
    | nil => exact fun joined h => h
    | cons v values ih => exact fun joined h => ih _ (newline_not_mem_joinValue h v)
  exact hfold values [] not_mem_nil

/-- Lines under the same names hold the same values. -/
theorem namedLines_inj {req req' : HttpRequest} {names : List (List Char)}
    (h : names.flatMap (namedLine req) = names.flatMap (namedLine req')) :
    ∀ name ∈ names, joinValues (req.headerValues (.ofList name)) =
      joinValues (req'.headerValues (.ofList name)) := by
  induction names with
  | nil => simp
  | cons name names ih =>
    simp only [flatMap_cons, namedLine, headerLine, append_assoc, cons_append,
      append_cancel_left_eq, List.cons.injEq, true_and, nil_append] at h
    obtain ⟨hvalue, hrest⟩ := Delimited.split_at_first (newline_not_mem_joinValues _)
      (newline_not_mem_joinValues _) h
    exact forall_mem_cons.mpr ⟨hvalue, ih hrest⟩

end Headers

section Signed

variable {lib : Sigv4Lib}

/-- No two inputs of a digest, and no two messages under one key, come out the same. -/
structure Sigv4Lib.NoCollisions (lib : Sigv4Lib) : Prop where
  sha256 : Function.Injective lib.sha256
  hmac : ∀ key, Function.Injective (lib.hmac key)

theorem newline_not_mem_hexSha256 (payload : List UInt8) : '\n' ∉ lib.hexSha256 payload := by
  intro h
  exact absurd (isAlphanum_of_mem_hexEncode h) (by decide)

theorem hexSha256_injective (hlib : lib.NoCollisions) : Function.Injective lib.hexSha256 :=
  hexEncode_injective.comp hlib.sha256

theorem computeSignature_injective (hlib : lib.NoCollisions) (key : List UInt8) :
    Function.Injective (lib.computeSignature key) :=
  hexEncode_injective.comp ((hlib.hmac key).comp utf8_injective)

theorem stringToSign_inj (hlib : lib.NoCollisions) {amzDate amzDate' : String} {parsed : ParsedAuth}
    {canonical canonical' : List Char} (hdate : '\n' ∉ amzDate.toList)
    (hdate' : '\n' ∉ amzDate'.toList)
    (h : lib.stringToSign amzDate parsed canonical = lib.stringToSign amzDate' parsed canonical') :
    amzDate = amzDate' ∧ canonical = canonical' := by
  obtain ⟨hdates, hrest⟩ := Delimited.split_at_first hdate hdate' (append_cancel_left h)
  refine ⟨String.toList_injective hdates, ?_⟩
  have hhash := List.cons.inj (append_cancel_left hrest) |>.2
  exact utf8_injective (hexSha256_injective hlib hhash)

/-- What requests with one canonical form have in common. -/
structure SignedAlike (lib : Sigv4Lib) (signedHeaders : String) (req req' : HttpRequest) : Prop where
  method : req.method = req'.method
  path : req.path = req'.path ∨ req.path ∈ ["", "/"] ∧ req'.path ∈ ["", "/"]
  params : (lib.decodedParams (req.query.getD "")).Perm (lib.decodedParams (req'.query.getD ""))
  body : req.body = req'.body
  values : ∀ name ∈ signedNames signedHeaders, joinValues (req.headerValues (.ofList name)) =
    joinValues (req'.headerValues (.ofList name))

theorem newline_not_mem_method (req : HttpRequest) : '\n' ∉ req.method.toList := by
  intro h
  exact absurd (req.methodToken _ h) (by decide)

theorem signedAlike_of_canonicalRequest (hlib : lib.NoCollisions) {req req' : HttpRequest}
    {signedHeaders : String} {canonical : List Char}
    (h : lib.canonicalRequest req signedHeaders = .ok canonical)
    (h' : lib.canonicalRequest req' signedHeaders = .ok canonical) :
    SignedAlike lib signedHeaders req req' := by
  rw [canonicalRequest_eq] at h h'
  split at h
  · next hvalid =>
    rw [if_pos hvalid] at h'
    have hall := (Except.ok.inj h).trans (Except.ok.inj h').symm
    -- the first three lines are cut off at their ends, the payload's hash from behind
    obtain ⟨hmethod, hall⟩ := Delimited.split_at_first (newline_not_mem_method req)
      (newline_not_mem_method req') hall
    obtain ⟨hpath, hall⟩ := Delimited.split_at_first (newline_not_mem_encodePath _)
      (newline_not_mem_encodePath _) hall
    obtain ⟨hquery, hall⟩ := Delimited.split_at_first (newline_not_mem_canonicalQueryString lib)
      (newline_not_mem_canonicalQueryString lib) hall
    simp only [← cons_append, ← append_assoc] at hall
    obtain ⟨hheaders, hbody⟩ := Delimited.split_at_last (newline_not_mem_hexSha256 req.body)
      (newline_not_mem_hexSha256 req'.body) hall
    refine ⟨String.toList_injective hmethod, encodePath_inj hpath, decodedParams_perm lib hquery,
      hexSha256_injective hlib hbody, fun name hname => ?_⟩
    exact namedLines_inj (append_cancel_right hheaders) name
      ((mem_insertionSort _).mpr hname)
  · cases h

end Signed

end Rektifier
