import Rektifier.BatchRuns

namespace Rektifier

open Fallible List

variable {x : PgValue} {writes : List WriteRequest}

/-- Numbers by value, the others by content. -/
def EqualInValue : KeyValue → KeyValue → Prop
  | .s v, .s w => v = w
  | .n v, .n w => ∃ d e, Numeric.parse v = some d ∧ Numeric.parse w = some e ∧ d.value = e.value
  | .b v, .b w => v = w
  | _, _ => False

def KeysEqualInValue (a b : KeyValue × Option KeyValue) : Prop :=
  EqualInValue a.1 b.1 ∧ Option.Rel EqualInValue a.2 b.2

theorem pg_s_ok {v : String} : (KeyValue.s v).pg = .ok x ↔ x = .text v := by
  rw [KeyValue.pg, Except.ok.injEq, eq_comm]

theorem pg_b_ok {v : List UInt8} : (KeyValue.b v).pg = .ok x ↔ x = .bytea v := by
  rw [KeyValue.pg, Except.ok.injEq, eq_comm]

theorem pg_n_ok {v : String} :
    (KeyValue.n v).pg = .ok x ↔ ∃ d, Numeric.parse v = some d ∧ x = .numeric d.value := by
  simp only [KeyValue.pg, castNumeric]
  rcases Numeric.parse v with _ | d <;> simp [Except.map, eq_comm]

theorem pg_eq_iff (a b : KeyValue) : (∃ v, a.pg = .ok v ∧ b.pg = .ok v) ↔ EqualInValue a b := by
  cases a with
  | s v | b v => cases b <;> simp [pg_s_ok, pg_n_ok, pg_b_ok, EqualInValue]
  | n v =>
    cases b with
    | n w =>
      simp only [pg_n_ok, EqualInValue]
      constructor
      · rintro ⟨x, ⟨d, hd, hx⟩, e, he, hx'⟩
        exact ⟨d, e, hd, he, PgValue.numeric.inj (hx.symm.trans hx')⟩
      · rintro ⟨d, e, hd, he, heq⟩
        exact ⟨_, ⟨d, hd, rfl⟩, e, he, congrArg _ heq⟩
    | _ => simp [pg_s_ok, pg_n_ok, pg_b_ok, EqualInValue]

theorem addressedKey_ok_iff {pk : KeyValue} {sk : Option KeyValue} {k : PgKey} :
    addressedKey pk sk = .ok k ↔
      pk.pg = .ok k.1 ∧ Option.Rel (fun s v => KeyValue.pg s = .ok v) sk k.2 := by
  obtain ⟨p, s⟩ := k
  rw [addressedKey, bind_ok_iff]
  constructor
  · rintro ⟨p', hp, h⟩
    cases sk with
    | none =>
      cases h
      exact ⟨hp, .none⟩
    | some sk =>
      obtain ⟨s', hs, h⟩ := bind_ok h
      cases h
      exact ⟨hp, .some hs⟩
  · rintro ⟨hp, hs⟩
    refine ⟨p, hp, ?_⟩
    cases hs with
    | none => rfl
    | some hs => exact bind_ok_iff.mpr ⟨_, hs, rfl⟩

/-- One row exactly where the keys are equal in value. -/
theorem sameRow_iff (a b : KeyValue × Option KeyValue) : SameRow a b ↔ KeysEqualInValue a b := by
  obtain ⟨pk, sk⟩ := a
  obtain ⟨pk', sk'⟩ := b
  simp only [SameRow, addressedKey_ok_iff, KeysEqualInValue, ← pg_eq_iff]
  constructor
  · rintro ⟨k, ⟨hp, hs⟩, hp', hs'⟩
    refine ⟨⟨k.1, hp, hp'⟩, ?_⟩
    generalize k.2 = s at hs hs'
    cases hs with
    | none => cases hs'; exact .none
    | some hs => cases hs' with | some hs' => exact .some ((pg_eq_iff _ _).mp ⟨_, hs, hs'⟩)
  · rintro ⟨⟨p, hp, hp'⟩, hs⟩
    cases hs with
    | none => exact ⟨(p, none), ⟨hp, .none⟩, hp', .none⟩
    | some h =>
      obtain ⟨s, hs, hs'⟩ := (pg_eq_iff _ _).mpr h
      exact ⟨(p, some s), ⟨hp, .some hs⟩, hp', .some hs'⟩

theorem SameRow.symm {a b : KeyValue × Option KeyValue} (h : SameRow a b) : SameRow b a := by
  obtain ⟨k, ha, hb⟩ := h
  exact ⟨k, hb, ha⟩

def WriteRequest.key (schema : TableSchema) (w : WriteRequest) :
    Option (KeyValue × Option KeyValue) :=
  (w.putRequest.or w.deleteRequest).bind fun item => (extractKeyPair item schema).toOption

def SpelledAlike (schema : TableSchema) (writes : List WriteRequest) : Prop :=
  ∀ v ∈ writes, ∀ w ∈ writes, ∀ a b, v.key schema = some a → w.key schema = some b →
    KeysEqualInValue a b → a = b

theorem checkNewKey_ok {seen : List (KeyValue × Option KeyValue)}
    {key : KeyValue × Option KeyValue} (h : checkNewKey seen key = .ok ()) : key ∉ seen := by
  unfold checkNewKey at h
  split at h
  next => cases h
  next hnew => exact hnew

section

variable {schema : TableSchema} {seen : List (KeyValue × Option KeyValue)}

/-- What translation has established about one write. -/
structure AcceptedWrite (schema : TableSchema) (seen : List (KeyValue × Option KeyValue))
    (w : WriteRequest) (op : WriteOp) : Prop where
  key : w.key schema = some op.key
  fits : op.Fits schema.writeShape.baseKey
  fresh : op.key ∉ seen

theorem translateWrite_accepted {w : WriteRequest} {op : WriteOp}
    (h : translateWrite schema seen w = .ok op) : AcceptedWrite schema seen w op := by
  unfold translateWrite at h
  split at h
  next item hput hdelete =>
    obtain ⟨⟨pk, sk⟩, hkey, h⟩ := bind_ok h
    obtain ⟨_, hnew, h⟩ := bind_ok h
    cases h
    obtain ⟨hfit, hgen⟩ := extractKeyPair_spec hkey
    refine ⟨?_, ⟨hfit, ?_⟩, checkNewKey_ok hnew⟩
    · rw [WriteRequest.key, hput, Option.some_or, Option.bind_some, hkey]
      rfl
    · intro item' hitem
      cases hitem
      exact hgen
  next key hput hdelete =>
    obtain ⟨⟨pk, sk⟩, hkey, h⟩ := bind_ok h
    obtain ⟨_, _, h⟩ := bind_ok h
    obtain ⟨_, hnew, h⟩ := bind_ok h
    cases h
    refine ⟨?_, ⟨(extractKeyPair_spec hkey).1, nofun⟩, checkNewKey_ok hnew⟩
    rw [WriteRequest.key, hput, hdelete, Option.none_or, Option.bind_some, hkey]
    rfl
  next => cases h

theorem translateWrites_accepted {ops : List WriteOp}
    (h : translateWrites schema seen writes = .ok ops) :
    writes.map (WriteRequest.key schema) = ops.map (fun op => some op.key) ∧
    (∀ op ∈ ops, op.Fits schema.writeShape.baseKey) ∧
    (ops.map WriteOp.key).Nodup ∧ ∀ op ∈ ops, op.key ∉ seen := by
  induction writes generalizing seen ops with
  | nil =>
    cases h
    exact ⟨rfl, nofun, nodup_nil, nofun⟩
  | cons w writes ih =>
    obtain ⟨op, hop, h⟩ := bind_ok h
    obtain ⟨rest, hrest, h⟩ := bind_ok h
    cases h
    have hfirst := translateWrite_accepted hop
    obtain ⟨hkeys, hfits, hnodup, hfresh⟩ := ih hrest
    refine ⟨by rw [map_cons, map_cons, hfirst.key, hkeys], ?_, ?_, ?_⟩
    · exact forall_mem_cons.mpr ⟨hfirst.fits, hfits⟩
    · refine nodup_cons.mpr ⟨?_, hnodup⟩
      intro hmem
      obtain ⟨op', hop', hsame⟩ := mem_map.mp hmem
      exact hfresh op' hop' (hsame ▸ mem_cons_self)
    · refine forall_mem_cons.mpr ⟨hfirst.fresh, ?_⟩
      exact fun op' hop' hmem => hfresh op' hop' (mem_cons_of_mem _ hmem)

theorem pairwise_not_same_iff {ρ α β : Type} {requests : List ρ} {l : List α}
    {requestKey : ρ → Option β} {key : α → β} (same : β → β → Prop)
    (hsymm : ∀ a b, same a b → same b a)
    (hkeys : requests.map requestKey = l.map fun x => some (key x)) (hnodup : (l.map key).Nodup) :
    l.Pairwise (fun x y => ¬ same (key x) (key y)) ↔ ∀ v ∈ requests, ∀ w ∈ requests, ∀ a b,
      requestKey v = some a → requestKey w = some b → same a b → a = b := by
  have hmem : ∀ a, a ∈ l.map key ↔ ∃ w ∈ requests, requestKey w = some a := by
    intro a
    have hsome : some a ∈ requests.map requestKey ↔ a ∈ l.map key := by
      rw [hkeys]
      simp
    rw [← hsome, mem_map]
  have hpair : l.Pairwise (fun x y => ¬ same (key x) (key y))
      ↔ (l.map key).Pairwise fun a b => ¬ same a b := by
    rw [pairwise_map]
  rw [hpair]
  constructor
  · intro h v hv w hw a b ha hb hsame
    by_contra hne
    have : Std.Symm fun a b => ¬ same a b := ⟨fun a b h h' => h (hsymm b a h')⟩
    exact h.forall ((hmem a).mpr ⟨v, hv, ha⟩) ((hmem b).mpr ⟨w, hw, hb⟩) hne hsame
  · intro h
    refine hnodup.pairwise_of_forall_ne ?_
    intro a ha b hb hne hsame
    obtain ⟨v, hv, ha⟩ := (hmem a).mp ha
    obtain ⟨w, hw, hb⟩ := (hmem b).mp hb
    exact hne (h v hv w hw a b ha hb hsame)

theorem distinctRows_iff {ops : List WriteOp}
    (h : translateWrites schema [] writes = .ok ops) :
    DistinctRows ops ↔ SpelledAlike schema writes := by
  obtain ⟨hkeys, _, hnodup, _⟩ := translateWrites_accepted h
  have hiff := pairwise_not_same_iff SameRow (fun _ _ => SameRow.symm) hkeys hnodup
  simp only [sameRow_iff] at hiff
  simp only [DistinctRows, sameRow_iff, hiff, SpelledAlike]

end

end Rektifier
