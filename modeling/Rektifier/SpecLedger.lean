import Rektifier.Runs
import Rektifier.SpecWriters
import Rektifier.UpdateTableSpec

namespace Rektifier

open List Function

/-- The GSIs present, each with its serveable bit. -/
abbrev GsiBits := String → Option Bool

def gsiBits (gsis : OrderedMap String GsiSpec) : GsiBits :=
  fun name => (gsis.get name).map GsiSpec.serveable

/-- A GSI is created unserved, and one that is not there has no bit. -/
def SpecChange.apply (bits : GsiBits) : SpecChange → GsiBits
  | .added name => update bits name (some false)
  | .dropped name => update bits name none
  | .marked name serveable => update bits name ((bits name).map fun _ => serveable)
  | .judged verdict => fun name => (bits name).map fun b => (verdict name).getD b

def ledger (bits : GsiBits) (history : List SpecChange) : GsiBits :=
  history.foldl SpecChange.apply bits

theorem ledger_append (bits : GsiBits) (history changes : List SpecChange) :
    ledger bits (history ++ changes) = ledger (ledger bits history) changes :=
  foldl_append

def SpecChange.presence (name : String) : SpecChange → Option Bool
  | .added other => if other = name then some true else none
  | .dropped other => if other = name then some false else none
  | .marked _ _ | .judged _ => none

def SpecChange.bit (name : String) : SpecChange → Option Bool
  | .added other => if other = name then some false else none
  | .dropped _ => none
  | .marked other serveable => if other = name then some serveable else none
  | .judged verdict => verdict name

def lastPresence (name : String) (history : List SpecChange) : Option Bool :=
  (history.filterMap (SpecChange.presence name)).getLast?

def lastBit (name : String) (history : List SpecChange) : Option Bool :=
  (history.filterMap (SpecChange.bit name)).getLast?

theorem lastPresence_concat (name : String) (history : List SpecChange) (change : SpecChange) :
    lastPresence name (history ++ [change])
      = (change.presence name).or (lastPresence name history) := by
  rw [lastPresence, filterMap_append, List.getLast?_append, lastPresence]
  rcases hp : change.presence name with _ | b <;> simp [hp]

theorem lastBit_concat (name : String) (history : List SpecChange) (change : SpecChange) :
    lastBit name (history ++ [change]) = (change.bit name).or (lastBit name history) := by
  rw [lastBit, filterMap_append, List.getLast?_append, lastBit]
  rcases hb : change.bit name with _ | b <;> simp [hb]

/-- There when its last create or finished delete was a create. -/
theorem ledger_isSome (bits : GsiBits) (name : String) (history : List SpecChange) :
    (ledger bits history name).isSome
      = (lastPresence name history).getD (bits name).isSome := by
  induction history using List.reverseRecOn with
  | nil => rfl
  | append_singleton history change ih =>
    rw [ledger_append, lastPresence_concat]
    change (change.apply (ledger bits history) name).isSome = _
    cases change with
    | added other | dropped other =>
      by_cases h : name = other
      · simp [SpecChange.apply, SpecChange.presence, h]
      · simp [SpecChange.apply, SpecChange.presence, h, Ne.symm h, ih]
    | marked other serveable =>
      by_cases h : name = other
      · subst h
        simp [SpecChange.apply, SpecChange.presence, ih]
      · simp [SpecChange.apply, SpecChange.presence, h, ih]
    | judged verdict => simp [SpecChange.apply, SpecChange.presence, ih]

/-- The bit is the one set last. -/
theorem ledger_bit {bits : GsiBits} {name : String} {history : List SpecChange} {b : Bool}
    (h : ledger bits history name = some b) :
    some b = (lastBit name history).or (bits name) := by
  induction history using List.reverseRecOn generalizing b with
  | nil => exact h.symm
  | append_singleton history change ih =>
    rw [ledger_append] at h
    change change.apply (ledger bits history) name = some b at h
    rw [lastBit_concat]
    cases change with
    | added other =>
      by_cases hname : name = other
      · subst hname
        rw [SpecChange.apply, update_self] at h
        simp [SpecChange.bit, ← h]
      · rw [SpecChange.apply, update_of_ne hname] at h
        simp [SpecChange.bit, Ne.symm hname, ih h]
    | dropped other =>
      by_cases hname : name = other
      · subst hname
        rw [SpecChange.apply, update_self] at h
        cases h
      · rw [SpecChange.apply, update_of_ne hname] at h
        simp [SpecChange.bit, ih h]
    | marked other serveable =>
      by_cases hname : name = other
      · subst hname
        rw [SpecChange.apply, update_self] at h
        obtain ⟨_, _, rfl⟩ := Option.map_eq_some_iff.mp h
        simp [SpecChange.bit]
      · rw [SpecChange.apply, update_of_ne hname] at h
        simp [SpecChange.bit, Ne.symm hname, ih h]
    | judged verdict =>
      obtain ⟨b₀, hb₀, rfl⟩ := Option.map_eq_some_iff.mp h
      rcases hv : verdict name with _ | b₁
      · simp [SpecChange.bit, hv, ih hb₀]
      · simp [SpecChange.bit, hv]

section

variable {gsis : OrderedMap String GsiSpec} {name : String} {g : GsiSpec}

theorem gsiBits_insert : gsiBits (gsis.insert name g)
    = update (gsiBits gsis) name (some g.serveable) := by
  funext other
  by_cases h : other = name
  · rw [h, update_self, gsiBits, OrderedMap.get_insert_self, Option.map_some]
  · rw [update_of_ne h, gsiBits, OrderedMap.get_insert_of_ne _ h, gsiBits]

theorem gsiBits_erase : gsiBits (gsis.erase name) = update (gsiBits gsis) name none := by
  funext other
  by_cases h : other = name
  · rw [h, update_self, gsiBits, OrderedMap.get_erase_self, Option.map_none]
  · rw [update_of_ne h, gsiBits, OrderedMap.get_erase_of_ne _ h, gsiBits]

theorem gsiBits_eraseAll (names : List String) :
    gsiBits (gsis.eraseAll names) = ledger (gsiBits gsis) (names.map .dropped) := by
  induction names generalizing gsis with
  | nil => rfl
  | cons name names ih =>
    have hrest := @ih (gsis.erase name)
    rw [gsiBits_erase] at hrest
    exact hrest

theorem gsiBits_insertAll_marked {marked : List (String × GsiSpec)}
    (hpresent : ∀ e ∈ marked, (gsis.get e.1).isSome) (hbit : ∀ e ∈ marked, e.2.serveable = false) :
    gsiBits (gsis.insertAll marked)
      = ledger (gsiBits gsis) (marked.map fun e => .marked e.1 false) := by
  induction marked generalizing gsis with
  | nil => rfl
  | cons e marked ih =>
    obtain ⟨g, hg⟩ := Option.isSome_iff_exists.mp (hpresent e mem_cons_self)
    have hlater : ∀ e' ∈ marked, ((gsis.insert e.1 e.2).get e'.1).isSome := by
      intro e' he'
      by_cases h : e'.1 = e.1
      · rw [h, OrderedMap.get_insert_self]
        rfl
      · rw [OrderedMap.get_insert_of_ne _ h]
        exact hpresent e' (mem_cons_of_mem _ he')
    have hstep : gsiBits (gsis.insert e.1 e.2)
        = SpecChange.apply (gsiBits gsis) (.marked e.1 false) := by
      rw [gsiBits_insert, hbit e mem_cons_self, SpecChange.apply, gsiBits, hg]
      rfl
    have hrest := ih hlater fun e' he' => hbit e' (mem_cons_of_mem _ he')
    rw [hstep] at hrest
    exact hrest

theorem gsiBits_insertAll_added {creates : List GsiSpec}
    (hbit : ∀ g ∈ creates, g.serveable = false) :
    gsiBits (gsis.insertAll (creates.map fun g => (g.name, g)))
      = ledger (gsiBits gsis) (creates.map fun g => .added g.name) := by
  induction creates generalizing gsis with
  | nil => rfl
  | cons g creates ih =>
    have hrest := @ih (gsis.insert g.name g) fun g' hg' => hbit g' (mem_cons_of_mem _ hg')
    rw [gsiBits_insert, hbit g mem_cons_self] at hrest
    exact hrest

theorem gsiBits_setServeable (s : TableState) (name : String) (serveable : Bool)
    (reason : Option String) : gsiBits (setServeable s name serveable reason).entry.gsis
      = SpecChange.apply (gsiBits s.entry.gsis) (.marked name serveable) := by
  unfold setServeable
  rcases hget : s.entry.gsis.get name with _ | g
  · have hnone : gsiBits s.entry.gsis name = none := by rw [gsiBits, hget, Option.map_none]
    rw [SpecChange.apply, hnone, Option.map_none, ← hnone, update_eq_self]
  · have hsome : gsiBits s.entry.gsis name = some g.serveable := by
      rw [gsiBits, hget, Option.map_some]
    simp only [gsiBits_insert, SpecChange.apply, hsome, Option.map_some]

theorem gsiBits_removeGsi (s : TableState) (name : String) :
    gsiBits (removeGsi s name).entry.gsis
      = SpecChange.apply (gsiBits s.entry.gsis) (.dropped name) := by
  unfold removeGsi
  rcases hget : s.entry.gsis.get name with _ | g
  · have hnone : gsiBits s.entry.gsis name = none := by rw [gsiBits, hget, Option.map_none]
    rw [SpecChange.apply, ← hnone, update_eq_self]
  · exact gsiBits_erase

/-- What UpdateTable writes is what it means, done to the entry it read. -/
theorem gsiBits_mergedGsis {e : TableEntry} {deletes : List String} {creates : List GsiSpec}
    (hbit : ∀ g ∈ creates, g.serveable = false) :
    gsiBits (mergedGsis e deletes creates)
      = ledger (gsiBits e.gsis) (updateChanges e deletes creates) := by
  have hmarks : ∀ names : List String,
      (∀ n ∈ names, (e.gsis.get n).isSome) →
      (names.filterMap fun name => (e.gsis.get name).map fun g => (name, { g with
          serveable := false, unserveableReason := some "GSI removal in progress" })).map
        (fun e => SpecChange.marked e.1 false) = names.map (SpecChange.marked · false) := by
    intro names hnames
    induction names with
    | nil => rfl
    | cons n names ih =>
      obtain ⟨g, hg⟩ := Option.isSome_iff_exists.mp (hnames n mem_cons_self)
      have hrest := ih fun n' hn' => hnames n' (mem_cons_of_mem _ hn')
      simp only [filterMap_cons, hg, Option.map_some, map_cons, hrest]
  unfold mergedGsis updateChanges
  rw [gsiBits_insertAll_added hbit, gsiBits_insertAll_marked, gsiBits_eraseAll, hmarks,
    ledger_append, ledger_append]
  · intro n hn
    obtain ⟨_, g, hget, _⟩ := isMode_of_mem_filter hn
    rw [hget]
    rfl
  · -- a marked index is a DualWrite one, so it has not been erased
    intro entry hentry
    obtain ⟨n, hn, heq⟩ := mem_filterMap.mp hentry
    obtain ⟨_, g, hget, hmode⟩ := isMode_of_mem_filter hn
    rw [hget] at heq
    cases heq
    rw [OrderedMap.get_eraseAll_of_not_mem, hget]
    · rfl
    · intro hmem
      obtain ⟨_, g', hget', hmode'⟩ := isMode_of_mem_filter hmem
      cases hget.symm.trans hget'
      rw [hmode] at hmode'
      cases hmode'
  · intro entry hentry
    obtain ⟨n, _, heq⟩ := mem_filterMap.mp hentry
    obtain ⟨g, _, rfl⟩ := Option.map_eq_some_iff.mp heq
    rfl

/-- What a pass writes is its verdict, done to the row it loaded. -/
theorem gsiBits_verdict {row : TableEntry} {f : GsiSpec → GsiSpec} :
    gsiBits (row.gsis.mapVals f)
      = SpecChange.apply (gsiBits row.gsis) (.judged (verdictBits row (row.gsis.mapVals f))) := by
  funext name
  rcases hget : row.gsis.get name with _ | g
  · simp [gsiBits, SpecChange.apply, hget]
  · by_cases hsame : (f g).serveable = g.serveable
    · simp [gsiBits, SpecChange.apply, verdictBits, hget, hsame]
    · simp [gsiBits, SpecChange.apply, verdictBits, hget, hsame]

end

end Rektifier
