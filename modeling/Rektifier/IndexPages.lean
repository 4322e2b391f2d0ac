import Rektifier.IndexRows

namespace Rektifier

open Fallible

variable [LinearOrder PgValue] {shape : TableShape} {forward : Bool}

def SkCondition.selects (x : PgValue) : SkCondition → Bool
  | .eq v => v.pg.toOption.any fun b => x = b
  | .lt v => v.pg.toOption.any fun b => x < b
  | .le v => v.pg.toOption.any fun b => x ≤ b
  | .gt v => v.pg.toOption.any fun b => b < x
  | .ge v => v.pg.toOption.any fun b => b ≤ x
  | .between lo hi => (lo.pg.toOption.any fun a => a ≤ x) && hi.pg.toOption.any fun b => x ≤ b
  | .beginsWithS start => match x with
    | .text s => start.toList.isPrefixOf s.toList
    | _ => false

/-- Only `::numeric` can fail. -/
def KeyValue.castable : KeyValue → Bool
  | .n v => isNumeral v
  | _ => true

def SkCondition.values : SkCondition → List KeyValue
  | .eq v | .lt v | .le v | .gt v | .ge v => [v]
  | .between lo hi => [lo, hi]
  | .beginsWithS _ => []

omit [LinearOrder PgValue] in
theorem KeyValue.pg_ok {v : KeyValue} (h : v.castable) : ∃ x, v.pg = .ok x := by
  cases v with
  | n s =>
    obtain ⟨q, hq⟩ := (castNumeric_ok_iff s).mpr h
    exact ⟨.numeric q, by rw [KeyValue.pg, hq]; rfl⟩
  | s | b => exact ⟨_, rfl⟩

theorem test_ok {c : SkCondition} (h : ∀ v ∈ c.values, v.castable) :
    ∃ test, c.test = .ok test := by
  cases c with
  | between lo hi =>
    obtain ⟨a, ha⟩ := KeyValue.pg_ok (h lo (by simp [SkCondition.values]))
    obtain ⟨b, hb⟩ := KeyValue.pg_ok (h hi (by simp [SkCondition.values]))
    exact ⟨_, bind_ok_iff.mpr ⟨a, ha, bind_ok_iff.mpr ⟨b, hb, rfl⟩⟩⟩
  | beginsWithS => exact ⟨_, rfl⟩
  | eq v | lt v | le v | gt v | ge v =>
    obtain ⟨b, hb⟩ := KeyValue.pg_ok (h v (List.mem_singleton.mpr rfl))
    exact ⟨_, map_ok_iff.mpr ⟨b, hb, rfl⟩⟩

/-- The first page's WHERE goes through where all parameters cast. -/
theorem queryWhere_ok {pk : KeyValue} {cond : Option SkCondition} (hpk : pk.castable)
    (hcond : ∀ c ∈ cond, ∀ v ∈ c.values, v.castable) :
    ∃ selects : ShapeRow shape → Bool, queryWhere pk cond none forward = .ok selects := by
  obtain ⟨a, ha⟩ := KeyValue.pg_ok hpk
  obtain ⟨sort, hsort⟩ : ∃ sort, skTest cond = .ok sort := by
    rcases cond with _ | c
    · exact ⟨_, rfl⟩
    · obtain ⟨test, htest⟩ := test_ok (hcond c rfl)
      exact ⟨_, map_ok_iff.mpr ⟨test, htest, rfl⟩⟩
  exact ⟨_, bind_ok_iff.mpr ⟨a, ha, bind_ok_iff.mpr ⟨sort, hsort, rfl⟩⟩⟩

/-- The rows of a partition that meet the sort condition. -/
def inPartition (pk : KeyValue) (cond : Option SkCondition) (row : ShapeRow shape) : Bool :=
  (pk.pg.toOption.any fun b => row.pkCol = some b) && cond.all fun c => row.skCol.any c.selects

theorem test_eq_selects {c : SkCondition} {test : PgValue → Bool} (h : c.test = .ok test)
    (x : PgValue) : test x = c.selects x := by
  cases c with
  | between lo hi =>
    obtain ⟨a, ha, h⟩ := bind_ok h
    obtain ⟨b, hb, h⟩ := bind_ok h
    cases h
    simp [SkCondition.selects, ha, hb, Except.toOption]
  | beginsWithS start =>
    cases h
    cases x with
    | text s => exact like_escapeLike _ _
    | _ => rfl
  | _ =>
    obtain ⟨b, hb, rfl⟩ := map_ok_iff.mp h
    simp [SkCondition.selects, hb, Except.toOption]

theorem queryWhere_eq {pk : KeyValue} {cond : Option SkCondition} {selects : ShapeRow shape → Bool}
    (h : queryWhere pk cond none forward = .ok selects) : selects = inPartition pk cond := by
  obtain ⟨partition, hpk, h⟩ := bind_ok h
  obtain ⟨sort, hsort, h⟩ := bind_ok h
  cases h
  funext row
  have hsk : sort row.skCol = cond.all fun c => row.skCol.any c.selects := by
    rcases cond with _ | c
    · cases hsort
      rfl
    · obtain ⟨test, htest, rfl⟩ := map_ok_iff.mp hsort
      have heq : test = c.selects := funext (test_eq_selects htest)
      simp [heq]
  simp [inPartition, hpk, hsk, Except.toOption]

/-- Rows in the order of their sort values, the next page after the last row's. -/
def queryPages (order : RowSort (queryRank shape forward)) :
    KeysetPages (ShapeRow shape) (SortRank forward) :=
  ⟨queryRank shape forward, fun row => carriesKey shape row.data, order⟩

inductive CursorAt (shape : TableShape) (forward : Bool) :
    Option (KeyValue × Option KeyValue) → Option (SortRank forward) → Prop
  | start : CursorAt shape forward none none
  | hash {pk : KeyValue} :
      shape.sk = none → CursorAt shape forward (some (pk, none)) (some (.of forward none))
  | sort {pk sk : KeyValue} {b : PgValue} : shape.sk.isSome = true → sk.pg = .ok b →
      CursorAt shape forward (some (pk, some sk)) (some (.of forward (some b)))

theorem sortRank_lt_iff {b x : PgValue} :
    SortRank.of forward (some b) < SortRank.of forward (some x) ↔
      (if forward then b < x else x < b) := by
  cases forward with
  | true | false => exact WithTop.coe_lt_coe

theorem sortRank_lt_none (x : PgValue) :
    SortRank.of true (some x) < SortRank.of true none := WithTop.coe_lt_top x

theorem sortRank_none_lt (x : PgValue) :
    SortRank.of false none < SortRank.of false (some x) := WithTop.coe_lt_top x

variable {order : RowSort (queryRank shape forward)} {rows : List (ShapeRow shape)}
  {pk : KeyValue} {cond : Option SkCondition} {esk : Option (KeyValue × Option KeyValue)}
  {cursor : Option (SortRank forward)}

theorem carriesKey_iff {row : ShapeRow shape} (h : inPartition pk cond row) :
    carriesKey shape row.data ↔ (shape.sk.isSome → row.skCol ≠ none) := by
  rcases row.lek_cases with ⟨hcarries, _, hnone | ⟨hshape, hnone⟩⟩ |
      ⟨hcarries, _, _, _, _, ⟨hshape, _⟩ | ⟨_, _, _, hsk, _⟩⟩
  · simp [inPartition, hnone] at h
  · simp [hcarries, hshape, hnone]
  · simp [hcarries, hshape]
  · simp [hcarries, hsk]

/-- A start key selects the rows of the partition after it. -/
theorem queryWhere_esk {selects : ShapeRow shape → Bool} {sk : KeyValue} {b : PgValue}
    (hshape : shape.sk.isSome) (hwhere : queryWhere pk cond none forward = .ok selects)
    (hsk : sk.pg = .ok b) (order : RowSort (queryRank shape forward)) (pk' : KeyValue) :
    queryWhere pk cond (some (pk', some sk)) forward = .ok fun row =>
      inPartition pk cond row && (queryPages order).after (some (.of forward (some b))) row := by
  have hselects := queryWhere_eq hwhere
  obtain ⟨partition, hpk, h⟩ := bind_ok hwhere
  obtain ⟨sort, hsort, h⟩ := bind_ok h
  have hrows : selects = fun row => decide (row.pkCol = some partition) && sort row.skCol := by
    cases h
    funext row
    simp
  have hok : queryWhere pk cond (some (pk', some sk)) forward = .ok fun row : ShapeRow shape =>
      decide (row.pkCol = some partition) && sort row.skCol &&
        row.skCol.any fun x => if forward then b < x else x < b := by
    simp only [queryWhere, hpk, hsort, queryEskTest, hsk, bind, Except.bind, Except.map, pure,
      Except.pure]
  rw [hok]
  congr 1
  funext row
  have hsame : (decide (row.pkCol = some partition) && sort row.skCol) = inPartition pk cond row := by
    rw [← hselects, hrows]
  rw [hsame]
  rcases hin : inPartition pk cond row with _ | _
  · rfl
  · rw [Bool.true_and, Bool.true_and, Bool.eq_iff_iff]
    simp only [KeysetPages.after, queryPages, Bool.and_eq_true, carriesKey_iff hin, hshape,
      true_implies]
    rcases hcol : row.skCol with _ | x
    · simp
    · simp only [queryRank, hcol, sortRank_lt_iff]
      cases forward <;> simp

end Rektifier
