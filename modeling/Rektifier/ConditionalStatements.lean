import Rektifier.ConditionalCalls
import Rektifier.TransactCorrect

namespace Rektifier

open Fallible

variable {shape : TableShape} {k : PgKey} {call : ConditionalCall} {existing : Option Json}
  {change : RowChange}

/-- The INSERT writes a row exactly if it finds none under the key. -/
theorem writeLocked_insert {t : PgTable shape.baseKey} {pk : KeyValue} {sk : Option KeyValue}
    {item : Json} (hgen : generatedKey shape.baseKey item = .ok k)
    {r : Option (PgTable shape.baseKey)} (h : writeLocked shape t pk sk none item = .ok r) :
    match r with
    | none => t.items k ≠ none
    | some t' => t.items k = none ∧ t'.items k = some item := by
  obtain ⟨_, hr, h⟩ := bind_ok h
  have hinsert : (buildInsertOnlySql shape).insert.eval [.jsonb item] .null = .ok item := rfl
  have hexec := pgResult_ok hr
  rcases insertOnlySql_exec hinsert hgen t with
    ⟨_, e, he⟩ | ⟨_, hrow, he⟩ | ⟨_, hnone, t', he, hwrote⟩
  · cases he.symm.trans hexec
  · cases he.symm.trans hexec
    cases h
    exact fun hnone => hrow (Option.map_eq_none_iff.mp hnone)
  · cases he.symm.trans hexec
    cases h
    exact ⟨by rw [PgTable.items, hnone]; rfl, hwrote.row⟩

section

variable {t t' : PgTable shape.baseKey} (hon : call.On shape k)
  (hdecide : call.action.decide existing = .ok change)

include hon hdecide

/-- The statement of a call that read the committed item leaves what was decided. -/
theorem exec_locked {item : Json} (hexisting : existing = some item)
    (hitem : t.items k = some item) {r : Option (PgTable shape.baseKey)}
    (h : call.exec shape t existing change = .ok r) :
    ∃ t', r = some t' ∧ t'.items k = change.left := by
  subst hexisting
  cases change with
  | store new =>
    have hgen := hon.stores t new (by rw [hitem]; exact hdecide)
    have hwrite := writeLocked_cases hon.fits hon.key hgen t
    rw [show (t.rows k).map PgRow.data = some item from hitem] at hwrite
    rcases hwrite with ⟨_, t', he, hwrote⟩ | ⟨_, e, he⟩
    · cases he.symm.trans h
      exact ⟨t', rfl, hwrote.row⟩
    · cases he.symm.trans h
  | remove =>
    obtain ⟨t', ht', hr⟩ := map_ok_iff.mp h
    have hleaves := deleteIfFound_leaves hon.fits t hon.key
    rw [hitem] at hleaves
    obtain ⟨t'', he, hitems⟩ := hleaves
    cases he.symm.trans ht'
    refine ⟨t', hr.symm, ?_⟩
    rw [hitems, Function.update_self]
    rfl

/-- A statement that writes replaces the item the call has read. -/
theorem exec_some (hread : existing = none ∨ t.items k = existing)
    (htouch : (existing, change) ≠ (none, .remove))
    (h : call.exec shape t existing change = .ok (some t')) :
    t.items k = existing ∧ t'.items k = change.left := by
  cases existing with
  | none =>
    cases change with
    | store new =>
      exact writeLocked_insert (hon.stores PgTable.empty new hdecide) h
    | remove => exact absurd rfl htouch
  | some item =>
    have hitem := hread.resolve_left nofun
    obtain ⟨t'', ht, hleft⟩ := exec_locked hon hdecide rfl hitem h
    cases ht
    exact ⟨hitem, hleft⟩

end

section

variable {schema : TableSchema} {pk : KeyValue} {sk : Option KeyValue}
  (hk : addressedKey pk sk = .ok k)

include hk

theorem putWithCondition_on {item : Item} (hkey : extractKeyPair item schema = .ok (pk, sk))
    (condition : Option Json → Bool) :
    (ConditionalCall.mk pk sk (.putWithCondition (Item.toValue item) condition)).On
      schema.writeShape k := by
  obtain ⟨hfit, hgen⟩ := extractKeyPair_spec hkey
  refine ⟨hfit, hk, ?_⟩
  intro t new hdecide
  obtain ⟨_, _, hdecide⟩ := bind_ok hdecide
  cases hdecide
  exact hgen.trans hk

theorem deleteWithCondition_on {key : Item} (hkey : extractKeyPair key schema = .ok (pk, sk))
    (condition : Option Json → Bool) :
    (ConditionalCall.mk pk sk (.deleteWithCondition condition)).On schema.writeShape k := by
  refine ⟨(extractKeyPair_spec hkey).1, hk, ?_⟩
  intro t new hdecide
  obtain ⟨_, _, hdecide⟩ := bind_ok hdecide
  cases hdecide

end

end Rektifier
