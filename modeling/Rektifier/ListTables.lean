import Rektifier.Catalog
import Rektifier.SortedPages

namespace Rektifier

open Fallible SortedPages

/-- In the order the hash map has them. -/
structure CatalogSnapshot where
  entries : List (String × TableEntry)
  distinct : (entries.map Prod.fst).Nodup

def CatalogSnapshot.names (snapshot : CatalogSnapshot) : List String :=
  snapshot.entries.map Prod.fst

def sortedTableNames (snapshot : CatalogSnapshot) : List String :=
  snapshot.names.insertionSort (· ≤ ·)

structure ListTablesRequest where
  exclusiveStartTableName : Option String
  limit : Option Nat

structure ListTablesResponse where
  tableNames : List String
  lastEvaluatedTableName : Option String

def listTablesDefaultLimit : Nat := 100

def listTablesMaxLimit : Nat := 100

def listTablesLimit : Option Nat → Except DdlError Nat
  | none => .ok listTablesDefaultLimit
  | some 0 => .error (.validation "ListTables.Limit must be between 1 and 100")
  | some n =>
    if n > listTablesMaxLimit then
      .error (.validation
        ("ListTables.Limit must be between 1 and " ++ toString listTablesMaxLimit))
    else .ok n

def handleListTables (snapshot : CatalogSnapshot) (req : ListTablesRequest) :
    Except DdlError ListTablesResponse := do
  let limit ← listTablesLimit req.limit
  let allNames := sortedTableNames snapshot
  let startIdx := match req.exclusiveStartTableName with
    | none => 0
    | some after => (allNames.findIdx? fun n => after < n).getD allNames.length
  -- a list is shorter than where the sum would saturate
  let endIdx := min (startIdx + limit) allNames.length
  let tableNames := (allNames.take endIdx).drop startIdx
  return ⟨tableNames, if endIdx < allNames.length then tableNames.getLast? else none⟩

/-- Called with the last name of each page, until none is returned; `none` when fuel runs out. -/
def listAllTables (snapshot : CatalogSnapshot) (limit : Option Nat) :
    Nat → Option String → Except DdlError (Option (List ListTablesResponse))
  | 0, _ => .ok none
  | fuel + 1, cursor => do
    let page ← handleListTables snapshot ⟨cursor, limit⟩
    match page.lastEvaluatedTableName with
    | none => return some [page]
    | some last => (listAllTables snapshot limit fuel (some last)).map (Option.map (page :: ·))

variable {snapshot : CatalogSnapshot} {limit : Option Nat} {n : Nat}

theorem sortedTableNames_perm (snapshot : CatalogSnapshot) :
    (sortedTableNames snapshot).Perm snapshot.names :=
  List.perm_insertionSort _ _

theorem sortedTableNames_strict (snapshot : CatalogSnapshot) :
    (sortedTableNames snapshot).Pairwise (· < ·) := by
  have hsorted : (sortedTableNames snapshot).Pairwise (· ≤ ·) := List.pairwise_insertionSort _ _
  have hnodup : (sortedTableNames snapshot).Nodup :=
    (sortedTableNames_perm snapshot).nodup_iff.mpr snapshot.distinct
  exact (hsorted.and hnodup).imp fun h => lt_of_le_of_ne h.1 h.2

theorem listTablesLimit_pos (h : listTablesLimit limit = .ok n) : 0 < n := by
  unfold listTablesLimit at h
  split at h
  · cases h
    decide
  · cases h
  · next m hm =>
    split at h
    · cases h
    · cases h
      exact Nat.pos_of_ne_zero hm

/-- The page of the names left, with a cursor when it is not the last. -/
def tablePage (n : Nat) (left : List String) : ListTablesResponse :=
  ⟨left.take n, if n < left.length then (left.take n).getLast? else none⟩

theorem handleListTables_ok (h : listTablesLimit limit = .ok n) (cursor : Option String) :
    handleListTables snapshot ⟨cursor, limit⟩ =
      .ok (tablePage n (after (sortedTableNames snapshot) cursor)) := by
  have hslice : ∀ (l : List String) (i : Nat),
      (⟨(l.take (min (i + n) l.length)).drop i, if min (i + n) l.length < l.length then
        ((l.take (min (i + n) l.length)).drop i).getLast? else none⟩ : ListTablesResponse) =
        tablePage n (l.drop i) := by
    intro l i
    have htake : (l.take (min (i + n) l.length)).drop i = (l.drop i).take n := by
      rw [List.drop_take, List.take_eq_take_iff, List.length_drop]
      omega
    rw [htake, tablePage, List.length_drop]
    have hmore : min (i + n) l.length < l.length ↔ n < l.length - i := by omega
    simp only [hmore]
  rw [handleListTables, h, ok_bind]
  cases cursor with
  | none => exact congrArg Except.ok (hslice _ 0)
  | some c =>
    have hsorted := (sortedTableNames_strict snapshot).imp fun h => le_of_lt h
    rw [after, ← drop_first_above hsorted c]
    exact congrArg Except.ok (hslice _ _)

/-- Full pages that name their last table, and a last one without a cursor, empty only when it is
the first. -/
structure PagesFrom (left : List String) (n : Nat) (pages : List ListTablesResponse) : Prop where
  names : pages.flatMap ListTablesResponse.tableNames = left
  limited : ∀ page ∈ pages, page.tableNames.length ≤ n
  ends : ∃ init last, pages = init ++ [last] ∧ last.lastEvaluatedTableName = none ∧
    (init ≠ [] → last.tableNames ≠ []) ∧
    ∀ page ∈ init, page.tableNames.length = n ∧
      page.lastEvaluatedTableName = page.tableNames.getLast?

theorem tablePage_length (n : Nat) (left : List String) :
    (tablePage n left).tableNames.length = min n left.length := List.length_take

theorem PagesFrom.single {left : List String} (h : left.length ≤ n) :
    PagesFrom left n [tablePage n left] := by
  have hpage : (tablePage n left).tableNames = left := List.take_of_length_le h
  refine ⟨?_, fun page hpage => ?_, [], _, rfl, if_neg (by omega), fun hne => absurd rfl hne, ?_⟩
  · rw [List.flatMap_singleton, hpage]
  · rw [List.mem_singleton.mp hpage, tablePage_length]
    exact Nat.min_le_left _ _
  · intro page hpage
    cases hpage

theorem PagesFrom.cons {left : List String} {pages : List ListTablesResponse} (h : n < left.length)
    (hpages : PagesFrom (left.drop n) n pages) : PagesFrom left n (tablePage n left :: pages) := by
  obtain ⟨init, last, rfl, hlast, hfilled, hinit⟩ := hpages.ends
  have hfull : (tablePage n left).tableNames.length = n := by
    rw [tablePage_length]
    omega
  refine ⟨?_, ?_, tablePage n left :: init, last, rfl, hlast, fun _ => ?_, ?_⟩
  · rw [List.flatMap_cons, hpages.names]
    exact List.take_append_drop n left
  · exact List.forall_mem_cons.mpr ⟨hfull.le, hpages.limited⟩
  · intro hempty
    by_cases hnil : init = []
    · have hleft := hpages.names
      rw [hnil, List.nil_append, List.flatMap_singleton, hempty] at hleft
      have hlength := congrArg List.length hleft
      rw [List.length_drop, List.length_nil] at hlength
      omega
    · exact hfilled hnil hempty
  · exact List.forall_mem_cons.mpr ⟨⟨hfull, if_pos h⟩, hinit⟩

/-- Enough calls list everything from a cursor on, whatever the number allowed. -/
theorem listAllTables_ends (snapshot : CatalogSnapshot) (hlimit : listTablesLimit limit = .ok n)
    (cursor : Option String) :
    ∃ pages, PagesFrom (after (sortedTableNames snapshot) cursor) n pages ∧
      ∀ fuel, (after (sortedTableNames snapshot) cursor).length < fuel →
        listAllTables snapshot limit fuel cursor = .ok (some pages) := by
  have hn := listTablesLimit_pos hlimit
  -- by induction on the number of names left
  induction hleft : (after (sortedTableNames snapshot) cursor).length using
    Nat.strong_induction_on generalizing cursor with
  | _ count ih =>
    have hcall : ∀ fuel, listAllTables snapshot limit (fuel + 1) cursor =
        match (tablePage n (after (sortedTableNames snapshot) cursor)).lastEvaluatedTableName with
        | none => .ok (some [tablePage n (after (sortedTableNames snapshot) cursor)])
        | some last => (listAllTables snapshot limit fuel (some last)).map
            (Option.map (tablePage n (after (sortedTableNames snapshot) cursor) :: ·)) := by
      intro fuel
      rw [listAllTables, handleListTables_ok hlimit, ok_bind]
      rfl
    by_cases hmore : n < count
    · have hpage : 0 < ((after (sortedTableNames snapshot) cursor).take n).length := by
        rw [List.length_take]
        omega
      obtain ⟨last, hlast⟩ : ∃ last,
          ((after (sortedTableNames snapshot) cursor).take n).getLast? = some last := by
        rw [← Option.isSome_iff_exists, List.getLast?_isSome]
        exact List.ne_nil_of_length_pos hpage
      have hnext := after_last (sortedTableNames_strict snapshot) hlast
      have hcursor : (tablePage n (after (sortedTableNames snapshot)
          cursor)).lastEvaluatedTableName = some last := by
        rw [tablePage, if_pos (hleft ▸ hmore), hlast]
      obtain ⟨pages, hpages, hends⟩ := ih (count - n) (by omega) (some last)
        (by rw [hnext, List.length_drop, hleft])
      rw [hnext] at hpages
      refine ⟨_, PagesFrom.cons (hleft ▸ hmore) hpages, fun fuel hfuel => ?_⟩
      obtain ⟨fuel, rfl⟩ := Nat.exists_eq_succ_of_ne_zero (Nat.ne_of_gt (Nat.zero_lt_of_lt hfuel))
      rw [hcall, hcursor]
      show (listAllTables snapshot limit fuel (some last)).map _ = _
      rw [hends fuel (by omega)]
      rfl
    · refine ⟨_, PagesFrom.single (by omega), fun fuel hfuel => ?_⟩
      obtain ⟨fuel, rfl⟩ := Nat.exists_eq_succ_of_ne_zero (Nat.ne_of_gt (Nat.zero_lt_of_lt hfuel))
      have hcursor : (tablePage n (after (sortedTableNames snapshot)
          cursor)).lastEvaluatedTableName = none := by
        rw [tablePage, if_neg (hleft ▸ hmore)]
      rw [hcall, hcursor]

structure ListedTables (snapshot : CatalogSnapshot) (cursor : Option String) (n : Nat)
    (pages : List ListTablesResponse) : Prop where
  members : ∀ name, name ∈ pages.flatMap ListTablesResponse.tableNames ↔
    name ∈ snapshot.names ∧ ∀ c ∈ cursor, c < name
  ascending : (pages.flatMap ListTablesResponse.tableNames).Pairwise (· < ·)
  pages : PagesFrom (after (sortedTableNames snapshot) cursor) n pages

/-- Calls with any accepted limit, from any cursor, end and list every table above it once. -/
theorem list_tables_exact (hlimit : listTablesLimit limit = .ok n) (cursor : Option String) :
    ∃ pages, ListedTables snapshot cursor n pages ∧
      ∀ fuel, snapshot.entries.length < fuel →
        listAllTables snapshot limit fuel cursor = .ok (some pages) := by
  obtain ⟨pages, hpages, hends⟩ := listAllTables_ends snapshot hlimit cursor
  refine ⟨pages, ⟨fun name => ?_, ?_, hpages⟩, fun fuel hfuel => hends fuel ?_⟩
  · rw [hpages.names, mem_after, (sortedTableNames_perm snapshot).mem_iff]
  · rw [hpages.names]
    exact (sortedTableNames_strict snapshot).sublist after_sublist
  · have hlength : (after (sortedTableNames snapshot) cursor).length ≤ _ := after_sublist.length_le
    rw [(sortedTableNames_perm snapshot).length_eq, CatalogSnapshot.names,
      List.length_map] at hlength
    omega

def plainEntry (name : String) : TableEntry :=
  ⟨name, "rekt_t_" ++ name, "id", .s, none, [], OrderedMap.ofList []⟩

def threeTables : CatalogSnapshot where
  entries := ["c", "a", "d"].map fun name => (name, plainEntry name)
  distinct := by decide

/-- A cursor that names no table, and a last page that is full. -/
theorem list_tables_exact_full : ∃ pages, ListedTables threeTables (some "b") 2 pages ∧
    listAllTables threeTables (some 2) 4 (some "b") = .ok (some pages) := by
  have hlimit : listTablesLimit (some 2) = .ok 2 := rfl
  obtain ⟨pages, hpages, hends⟩ := list_tables_exact hlimit (some "b")
  exact ⟨pages, hpages, hends 4 (by decide)⟩

end Rektifier
