import Mathlib.Order.Basic
import Mathlib.Order.Lattice
import Mathlib.Tactic.SplitIfs
import Mathlib.Data.List.Nodup

namespace Entries

variable {κ α β : Type*} [LinearOrder κ]
variable {k : κ} {l : List (κ × α)} {es : List (κ × α)} {ks : List κ} {v : α}

def get (k : κ) : List (κ × α) → Option α
  | [] => none
  | (k', v) :: rest => if k = k' then some v else get k rest

/-- At the key's place, replacing the value already there. -/
def insert (k : κ) (v : α) : List (κ × α) → List (κ × α)
  | [] => [(k, v)]
  | (k', v') :: rest =>
    if k < k' then (k, v) :: (k', v') :: rest
    else if k = k' then (k, v) :: rest
    else (k', v') :: insert k v rest

def erase (k : κ) : List (κ × α) → List (κ × α)
  | [] => []
  | (k', v) :: rest => if k = k' then erase k rest else (k', v) :: erase k rest

def mapVals (f : α → β) (l : List (κ × α)) : List (κ × β) := l.map fun e => (e.1, f e.2)

def insertAll (l : List (κ × α)) (es : List (κ × α)) : List (κ × α) :=
  es.foldl (fun m e => insert e.1 e.2 m) l

def eraseAll (l : List (κ × α)) (ks : List κ) : List (κ × α) :=
  ks.foldl (fun m k => erase k m) l

def Sorted (l : List (κ × α)) : Prop := l.Pairwise fun a b => a.1 < b.1

instance (l : List (κ × α)) : Decidable (Sorted l) :=
  inferInstanceAs (Decidable (l.Pairwise _))

@[simp] theorem get_nil (k : κ) : get k ([] : List (κ × α)) = none := rfl

@[simp] theorem get_insert_self (k : κ) (v : α) (l : List (κ × α)) :
    get k (insert k v l) = some v := by
  induction l with
  | nil => simp [insert, get]
  | cons e rest ih =>
    rw [insert]
    split_ifs with h1 h2
    · simp [get]
    · simp [get]
    · simpa [get, h2] using ih

theorem get_insert_of_ne {k k' : κ} (h : k' ≠ k) (v : α) (l : List (κ × α)) :
    get k' (insert k v l) = get k' l := by
  induction l with
  | nil => simp [insert, get, h]
  | cons e rest ih =>
    rw [insert]
    split_ifs with h1 h2
    · simp [get, h]
    · subst h2
      simp [get, h]
    · simp [get, ih]

@[simp] theorem get_erase_self (k : κ) (l : List (κ × α)) : get k (erase k l) = none := by
  induction l with
  | nil => rfl
  | cons e rest ih =>
    rw [erase]
    split_ifs with h
    · exact ih
    · simpa [get, h] using ih

theorem get_erase_of_ne {k k' : κ} (h : k' ≠ k) (l : List (κ × α)) :
    get k' (erase k l) = get k' l := by
  induction l with
  | nil => rfl
  | cons e rest ih =>
    rw [erase]
    split_ifs with he
    · subst he
      simpa [get, h] using ih
    · simp [get, ih]

theorem erase_of_get_none (h : get k l = none) : erase k l = l := by
  induction l with
  | nil => rfl
  | cons e rest ih =>
    rw [get] at h
    split_ifs at h with he
    rw [erase, if_neg he, ih h]

@[simp] theorem get_mapVals (f : α → β) (k : κ) (l : List (κ × α)) :
    get k (mapVals f l) = (get k l).map f := by
  induction l with
  | nil => rfl
  | cons e rest ih =>
    simp only [mapVals, List.map_cons, get] at ih ⊢
    split_ifs with h
    · rfl
    · exact ih

theorem get_eq_some_mem (h : get k l = some v) :
    (k, v) ∈ l := by
  induction l with
  | nil => simp at h
  | cons e rest ih =>
    rw [get] at h
    split_ifs at h with he
    · cases h
      subst he
      exact List.mem_cons_self
    · exact List.mem_cons_of_mem _ (ih h)

theorem get_insertAll_of_not_mem (h : k ∉ es.map Prod.fst)
    (l : List (κ × α)) : get k (insertAll l es) = get k l := by
  induction es generalizing l with
  | nil => rfl
  | cons e es ih =>
    simp only [List.map_cons, List.mem_cons, not_or] at h
    have hr := ih h.2 (insert e.1 e.2 l)
    rw [get_insert_of_ne h.1] at hr
    exact hr

theorem get_insertAll_of_mem (h : k ∈ es.map Prod.fst)
    (l : List (κ × α)) : ∃ v, get k (insertAll l es) = some v := by
  induction es generalizing l with
  | nil => simp at h
  | cons e es ih =>
    by_cases ht : k ∈ es.map Prod.fst
    · exact ih ht _
    · have he : k = e.1 := by simpa [ht] using h
      refine ⟨e.2, ?_⟩
      have hr := get_insertAll_of_not_mem ht (insert e.1 e.2 l)
      rw [he, get_insert_self] at hr
      rw [he]
      exact hr

theorem eraseAll_of_get_none (h : ∀ k ∈ ks, get k l = none) :
    eraseAll l ks = l := by
  induction ks with
  | nil => rfl
  | cons k ks ih =>
    have hk := erase_of_get_none (h k List.mem_cons_self)
    have hr := ih fun k' hk' => h k' (List.mem_cons_of_mem _ hk')
    simp only [eraseAll, List.foldl_cons, hk]
    exact hr

theorem get_eraseAll_of_mem (h : k ∈ ks) (l : List (κ × α)) :
    get k (eraseAll l ks) = none := by
  have hstay : ∀ (ks : List κ) (l : List (κ × α)), get k l = none → get k (eraseAll l ks) = none := by
    intro ks
    induction ks with
    | nil => exact fun _ h => h
    | cons k' ks ih =>
      intro l hl
      apply ih
      by_cases he : k = k'
      · simp [he]
      · rw [get_erase_of_ne he, hl]
  induction ks generalizing l with
  | nil => simp at h
  | cons k' ks ih =>
    rcases List.mem_cons.mp h with rfl | ht
    · exact hstay ks _ (get_erase_self k l)
    · exact ih ht _

theorem get_eraseAll_of_not_mem (h : k ∉ ks) (l : List (κ × α)) :
    get k (eraseAll l ks) = get k l := by
  induction ks generalizing l with
  | nil => rfl
  | cons k' ks ih =>
    simp only [List.mem_cons, not_or] at h
    have hr := ih h.2 (erase k' l)
    rw [get_erase_of_ne h.1] at hr
    exact hr

theorem mem_insert {e : κ × α} (h : e ∈ insert k v l) :
    e = (k, v) ∨ e ∈ l := by
  induction l with
  | nil => exact .inl (by simpa [insert] using h)
  | cons f rest ih =>
    rw [insert] at h
    split_ifs at h with h1 h2
    · exact List.mem_cons.mp h
    · rcases List.mem_cons.mp h with h | h
      · exact .inl h
      · exact .inr (List.mem_cons_of_mem _ h)
    · rcases List.mem_cons.mp h with h | h
      · exact .inr (h ▸ List.mem_cons_self)
      · exact (ih h).imp id (List.mem_cons_of_mem _)

theorem mem_insertAll {e : κ × α} {es l : List (κ × α)} (h : e ∈ insertAll l es) :
    e ∈ es ∨ e ∈ l := by
  induction es generalizing l with
  | nil => exact .inr h
  | cons e' es ih =>
    rcases ih (l := insert e'.1 e'.2 l) h with hes | hl
    · exact .inl (List.mem_cons_of_mem _ hes)
    · rcases mem_insert hl with rfl | hl
      · exact .inl List.mem_cons_self
      · exact .inr hl

theorem Sorted.insert (h : Sorted l) (k : κ) (v : α) :
    Sorted (insert k v l) := by
  induction l with
  | nil => exact List.pairwise_singleton _ _
  | cons e rest ih =>
    obtain ⟨he, hr⟩ := List.pairwise_cons.mp h
    rw [Entries.insert]
    split_ifs with h1 h2
    · refine List.pairwise_cons.mpr ⟨?_, h⟩
      intro f hf
      rcases List.mem_cons.mp hf with rfl | hf
      · exact h1
      · exact h1.trans (he f hf)
    · subst h2
      exact List.pairwise_cons.mpr ⟨he, hr⟩
    · refine List.pairwise_cons.mpr ⟨?_, ih hr⟩
      intro f hf
      rcases mem_insert hf with rfl | hf
      · exact lt_of_le_of_ne (not_lt.mp h1) (Ne.symm h2)
      · exact he f hf

theorem mem_of_mem_erase {e : κ × α} (h : e ∈ erase k l) : e ∈ l := by
  induction l with
  | nil => exact h
  | cons f rest ih =>
    rw [erase] at h
    split_ifs at h with he
    · exact List.mem_cons_of_mem _ (ih h)
    · rcases List.mem_cons.mp h with rfl | h
      · exact List.mem_cons_self
      · exact List.mem_cons_of_mem _ (ih h)

theorem Sorted.erase (h : Sorted l) (k : κ) : Sorted (erase k l) := by
  induction l with
  | nil => exact h
  | cons e rest ih =>
    obtain ⟨he, hr⟩ := List.pairwise_cons.mp h
    rw [Entries.erase]
    split_ifs
    · exact ih hr
    · exact List.pairwise_cons.mpr ⟨fun f hf => he f (mem_of_mem_erase hf), ih hr⟩

theorem mapVals_insert (f : α → β) (k : κ) (v : α) (l : List (κ × α)) :
    mapVals f (insert k v l) = insert k (f v) (mapVals f l) := by
  induction l with
  | nil => rfl
  | cons e rest ih =>
    simp only [mapVals, List.map_cons] at ih ⊢
    rw [insert, insert]
    split_ifs
    · rfl
    · rfl
    · rw [List.map_cons, ih]

theorem mapVals_insertAll (f : α → β) (es l : List (κ × α)) :
    mapVals f (insertAll l es) = insertAll (mapVals f l) (mapVals f es) := by
  induction es generalizing l with
  | nil => rfl
  | cons e es ih =>
    have hr := ih (insert e.1 e.2 l)
    rw [mapVals_insert] at hr
    exact hr

theorem mapVals_erase (f : α → β) (k : κ) (l : List (κ × α)) :
    mapVals f (erase k l) = erase k (mapVals f l) := by
  induction l with
  | nil => rfl
  | cons e rest ih =>
    simp only [mapVals, List.map_cons] at ih ⊢
    rw [erase, erase]
    split_ifs
    · exact ih
    · rw [List.map_cons, ih]

theorem mapVals_eraseAll (f : α → β) (ks : List κ) (l : List (κ × α)) :
    mapVals f (eraseAll l ks) = eraseAll (mapVals f l) ks := by
  induction ks generalizing l with
  | nil => rfl
  | cons k ks ih =>
    have hr := ih (erase k l)
    rw [mapVals_erase] at hr
    exact hr

end Entries

structure OrderedMap (κ α : Type*) [LinearOrder κ] where
  entries : List (κ × α)
  sorted : Entries.Sorted entries
deriving DecidableEq

namespace OrderedMap

variable {κ α : Type*} [LinearOrder κ]
variable {m : OrderedMap κ α} {k : κ} {es : List (κ × α)} {ks : List κ} {v : α}

def empty : OrderedMap κ α := ⟨[], List.Pairwise.nil⟩

def get (m : OrderedMap κ α) (k : κ) : Option α := Entries.get k m.entries

def insert (m : OrderedMap κ α) (k : κ) (v : α) : OrderedMap κ α :=
  ⟨Entries.insert k v m.entries, m.sorted.insert k v⟩

def erase (m : OrderedMap κ α) (k : κ) : OrderedMap κ α :=
  ⟨Entries.erase k m.entries, m.sorted.erase k⟩

/-- From left to right. -/
def insertAll (m : OrderedMap κ α) (es : List (κ × α)) : OrderedMap κ α :=
  es.foldl (fun m e => m.insert e.1 e.2) m

def eraseAll (m : OrderedMap κ α) (ks : List κ) : OrderedMap κ α := ks.foldl erase m

def ofList (es : List (κ × α)) : OrderedMap κ α := empty.insertAll es

def keys (m : OrderedMap κ α) : List κ := m.entries.map Prod.fst

def mapVals {β : Type*} (f : α → β) (m : OrderedMap κ α) : OrderedMap κ β :=
  ⟨Entries.mapVals f m.entries, List.pairwise_map.mpr m.sorted⟩

@[simp] theorem get_mapVals {β : Type*} (f : α → β) (m : OrderedMap κ α) (k : κ) :
    (m.mapVals f).get k = (m.get k).map f :=
  Entries.get_mapVals f k m.entries

theorem mapVals_mapVals {β γ : Type*} (f : α → β) (g : β → γ) (m : OrderedMap κ α) :
    (m.mapVals f).mapVals g = m.mapVals (g ∘ f) := by
  simp only [mapVals, Entries.mapVals, List.map_map]
  rfl

theorem entries_insertAll (m : OrderedMap κ α) (es : List (κ × α)) :
    (m.insertAll es).entries = Entries.insertAll m.entries es := by
  induction es generalizing m with
  | nil => rfl
  | cons e es ih => exact ih (m.insert e.1 e.2)

theorem entries_eraseAll (m : OrderedMap κ α) (ks : List κ) :
    (m.eraseAll ks).entries = Entries.eraseAll m.entries ks := by
  induction ks generalizing m with
  | nil => rfl
  | cons k ks ih => exact ih (m.erase k)

theorem get_of_mem (h : (k, v) ∈ m.entries) :
    m.get k = some v := by
  obtain ⟨entries, sorted⟩ := m
  change (k, v) ∈ entries at h
  change Entries.get k entries = some v
  induction entries with
  | nil => cases h
  | cons e rest ih =>
    obtain ⟨he, hr⟩ := List.pairwise_cons.mp sorted
    rcases List.mem_cons.mp h with rfl | hmem
    · exact if_pos rfl
    · have hne : k ≠ e.1 := (he (k, v) hmem).ne'
      rw [Entries.get, if_neg hne]
      exact ih hr hmem

theorem get_insertAll_cases (h : (m.insertAll es).get k = some v) :
    (k, v) ∈ es ∨ k ∉ es.map Prod.fst ∧ m.get k = some v := by
  by_cases hk : k ∈ es.map Prod.fst
  · left
    induction es generalizing m with
    | nil => cases hk
    | cons e rest ih =>
      by_cases hrest : k ∈ rest.map Prod.fst
      · exact List.mem_cons_of_mem _ (ih h hrest)
      · have hek : k = e.1 := by
          rcases List.mem_cons.mp hk with hk | hk
          · exact hk
          · exact absurd hk hrest
        have hget : ((m.insert e.1 e.2).insertAll rest).get k = some e.2 := by
          rw [get, entries_insertAll, Entries.get_insertAll_of_not_mem hrest, hek]
          exact Entries.get_insert_self _ _ _
        have hv : e.2 = v := Option.some.inj (hget.symm.trans h)
        rw [hek, ← hv]
        exact List.mem_cons_self
  · right
    rw [get, entries_insertAll, Entries.get_insertAll_of_not_mem hk] at h
    exact ⟨hk, h⟩

theorem get_eraseAll_eq_some
    (h : (m.eraseAll ks).get k = some v) : k ∉ ks ∧ m.get k = some v := by
  rw [get, entries_eraseAll] at h
  by_cases hk : k ∈ ks
  · rw [Entries.get_eraseAll_of_mem hk] at h
    cases h
  · rw [Entries.get_eraseAll_of_not_mem hk] at h
    exact ⟨hk, h⟩

theorem get_erase_eq_some {k k' : κ}
    (h : (m.erase k).get k' = some v) : k' ≠ k ∧ m.get k' = some v := by
  by_cases hk : k' = k
  · subst hk
    rw [get, erase, Entries.get_erase_self] at h
    cases h
  · exact ⟨hk, (Entries.get_erase_of_ne hk _).symm.trans h⟩

@[simp] theorem get_insert_self (m : OrderedMap κ α) (k : κ) (v : α) :
    (m.insert k v).get k = some v :=
  Entries.get_insert_self k v m.entries

theorem get_insert_of_ne (m : OrderedMap κ α) {k k' : κ} (h : k' ≠ k) (v : α) :
    (m.insert k v).get k' = m.get k' :=
  Entries.get_insert_of_ne h v m.entries

theorem get_erase_self (m : OrderedMap κ α) (k : κ) : (m.erase k).get k = none :=
  Entries.get_erase_self k m.entries

theorem get_erase_of_ne (m : OrderedMap κ α) {k k' : κ} (h : k' ≠ k) :
    (m.erase k).get k' = m.get k' :=
  Entries.get_erase_of_ne h m.entries

theorem get_insert_eq_some {k k' : κ} {v w : α}
    (h : (m.insert k v).get k' = some w) : k' = k ∧ w = v ∨ k' ≠ k ∧ m.get k' = some w := by
  by_cases hk : k' = k
  · subst hk
    have hself := Entries.get_insert_self k' v m.entries
    exact .inl ⟨rfl, Option.some.inj (h.symm.trans hself)⟩
  · exact .inr ⟨hk, (Entries.get_insert_of_ne hk v m.entries).symm.trans h⟩

theorem keys_nodup (m : OrderedMap κ α) : m.keys.Nodup := by
  rw [keys, List.Nodup, List.pairwise_map]
  exact m.sorted.imp ne_of_lt

theorem mem_keys_of_get (h : m.get k = some v) :
    k ∈ m.keys :=
  List.mem_map.mpr ⟨(k, v), Entries.get_eq_some_mem h, rfl⟩

theorem get_insertAll_of_not_mem
    (h : k ∉ es.map Prod.fst) : (m.insertAll es).get k = m.get k := by
  rw [get, entries_insertAll]
  exact Entries.get_insertAll_of_not_mem h _

theorem get_insertAll_of_mem (m : OrderedMap κ α)
    (h : k ∈ es.map Prod.fst) : ∃ v, (k, v) ∈ es ∧ (m.insertAll es).get k = some v := by
  obtain ⟨v, hv⟩ := Entries.get_insertAll_of_mem h m.entries
  have hget : (m.insertAll es).get k = some v := by rwa [get, entries_insertAll]
  rcases get_insertAll_cases hget with hmem | ⟨hnot, _⟩
  · exact ⟨v, hmem, hget⟩
  · exact absurd h hnot

theorem get_ofList_iff (hnodup : (es.map Prod.fst).Nodup) :
    (ofList es).get k = some v ↔ (k, v) ∈ es := by
  constructor
  · intro h
    rcases get_insertAll_cases h with hmem | ⟨_, hempty⟩
    · exact hmem
    · cases hempty
  · intro hmem
    obtain ⟨w, hw, hget⟩ := get_insertAll_of_mem empty (List.mem_map_of_mem hmem)
    cases List.inj_on_of_nodup_map hnodup hmem hw rfl
    exact hget

theorem get_eraseAll_of_not_mem (h : k ∉ ks) :
    (m.eraseAll ks).get k = m.get k := by
  rw [get, entries_eraseAll]
  exact Entries.get_eraseAll_of_not_mem h _

theorem ext_entries {m m' : OrderedMap κ α} (h : m.entries = m'.entries) : m = m' := by
  obtain ⟨xs, hx⟩ := m
  obtain ⟨ys, hy⟩ := m'
  cases h
  rfl

theorem ext_get {m m' : OrderedMap κ α} (h : ∀ k, m.get k = m'.get k) : m = m' := by
  have hmem : ∀ {m : OrderedMap κ α} {e : κ × α}, e ∈ m.entries ↔ m.get e.1 = some e.2 :=
    ⟨get_of_mem, Entries.get_eq_some_mem⟩
  have hnodup : ∀ m : OrderedMap κ α, m.entries.Nodup := fun m => List.Nodup.of_map _ m.keys_nodup
  have hperm : m.entries.Perm m'.entries := by
    refine (List.perm_ext_iff_of_nodup (hnodup m) (hnodup m')).mpr fun e => ?_
    rw [hmem, hmem, h]
  refine ext_entries (hperm.eq_of_pairwise ?_ m.sorted m'.sorted)
  exact fun _ _ _ _ hab hba => absurd hab hba.asymm

theorem insertAll_perm (m : OrderedMap κ α) {es es' : List (κ × α)} (h : es.Perm es')
    (hnodup : (es.map Prod.fst).Nodup) : m.insertAll es = m.insertAll es' := by
  apply ext_get
  intro k
  by_cases hk : k ∈ es.map Prod.fst
  · obtain ⟨v, hv, hget⟩ := m.get_insertAll_of_mem hk
    obtain ⟨w, hw, hget'⟩ := m.get_insertAll_of_mem ((h.map Prod.fst).mem_iff.mp hk)
    cases List.inj_on_of_nodup_map hnodup hv (h.mem_iff.mpr hw) rfl
    rw [hget, hget']
  · rw [get_insertAll_of_not_mem hk,
      get_insertAll_of_not_mem fun hk' => hk ((h.map Prod.fst).mem_iff.mpr hk')]

theorem get_insertAll (m : OrderedMap κ α) (es : List (κ × α)) (k : κ) : (m.insertAll es).get k =
    ((es.filter fun e => e.1 = k).getLast?.map Prod.snd).or (m.get k) := by
  induction es generalizing m with
  | nil => rfl
  | cons e es ih =>
    change ((m.insert e.1 e.2).insertAll es).get k = _
    rw [ih, List.filter_cons]
    by_cases hk : e.1 = k
    · subst hk
      rw [get_insert_self, if_pos (decide_eq_true rfl), List.getLast?_cons]
      cases (es.filter fun e' => e'.1 = e.1).getLast? <;> rfl
    · rw [get_insert_of_ne _ (Ne.symm hk), if_neg (by simpa using hk)]

theorem filter_entries (m : OrderedMap κ α) (k : κ) :
    (m.entries.filter fun e => e.1 = k) = ((m.get k).map fun v => (k, v)).toList := by
  have hnodup : (m.entries.filter fun e => e.1 = k).Nodup :=
    (List.Nodup.of_map _ m.keys_nodup).filter _
  refine (List.perm_ext_iff_of_nodup hnodup (by cases m.get k <;> simp)).mpr ?_ |>.eq_of_pairwise ?_
    (m.sorted.sublist List.filter_sublist) (by cases m.get k <;> simp)
  · rintro ⟨k', v⟩
    rw [List.mem_filter, Option.mem_toList, Option.map_eq_some_iff]
    constructor
    · rintro ⟨hmem, hk⟩
      obtain rfl : k' = k := by simpa using hk
      exact ⟨v, get_of_mem hmem, rfl⟩
    · rintro ⟨w, hget, heq⟩
      cases heq
      exact ⟨Entries.get_eq_some_mem hget, by simp⟩
  · exact fun _ _ _ _ hab hba => absurd hab hba.asymm

theorem eraseAll_insertAll_of_disjoint
    (hm : ∀ k ∈ ks, k ∉ m.keys) (hes : ∀ k ∈ ks, k ∉ es.map Prod.fst) :
    (m.insertAll es).eraseAll ks = m.insertAll es := by
  apply ext_entries
  rw [entries_eraseAll]
  apply Entries.eraseAll_of_get_none
  intro k hk
  have hg : (m.insertAll es).get k = m.get k := get_insertAll_of_not_mem (hes k hk)
  rcases hv : m.get k with _ | v
  · rw [hv] at hg
    exact hg
  · exact absurd (mem_keys_of_get hv) (hm k hk)

theorem mapVals_ofList {β : Type*} (f : α → β) (es : List (κ × α)) :
    (ofList es).mapVals f = ofList (es.map fun e => (e.1, f e.2)) := by
  apply ext_entries
  show Entries.mapVals f (empty.insertAll es).entries = (empty.insertAll _).entries
  rw [entries_insertAll, entries_insertAll, Entries.mapVals_insertAll]
  rfl

theorem ofList_of_perm (h : es.Perm m.entries) :
    ofList es = m := by
  have hnodup : (es.map Prod.fst).Nodup := (h.map Prod.fst).nodup_iff.mpr m.keys_nodup
  apply ext_get
  intro k
  apply Option.ext
  intro v
  rw [get_ofList_iff hnodup, h.mem_iff]
  exact ⟨get_of_mem, Entries.get_eq_some_mem⟩

end OrderedMap
