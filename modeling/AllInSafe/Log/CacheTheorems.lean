import AllInSafe.Log.Lemmas.Damage
import AllInSafe.Log.Lemmas.Restored
import AllInSafe.Log.Theorems

/-!
# The log cache
-/

namespace AllInSafe.Log
open AllInSafe.Library

/-! ## A whole cache -/

/-- The reading ends with its own message, and before it only the cached items have been added, which leave `items`
in a log buffer that was empty. -/
def Restores (r : Reading) (items : List LogItem) : Prop :=
  ∃ (restored : List LogItem) (n : Nat), r = { calls := restored.map .cached ++ [.rereadLog n], thrown := none } ∧
    restored.foldl (fun logbuffer li => newLogItem li true logbuffer) [] = items

section

variable {items : List LogItem}

theorem readCacheContents_records (h : ∀ li ∈ items, li.Encodable) (hfew : items.length ≤ 2 * MAXLOGENTRIES) :
    readCacheContents (records items) =
      { calls := items.map LogItem.call ++ [.rereadLog items.length], thrown := none } := by
  have hscan := scan_records h 0 (by omega) []
  rw [List.append_nil, Nat.zero_add, scan_nil hfew] at hscan
  rw [readCacheContents_eq_scan, hscan]
  rfl

theorem LogItem.call_eq_cached {li item : LogItem} : li.call = .cached item ↔ li.restored.verify ∧ li.restored = item := by
  rw [call]
  split
  case isTrue h => simp [h]
  case isFalse h => simp [h]

theorem map_call_eq {restored : List LogItem} :
    items.map LogItem.call = restored.map .cached ↔
      (∀ li ∈ items, li.restored.verify) ∧ items.map LogItem.restored = restored := by
  induction items generalizing restored with
  | nil => cases restored <;> simp
  | cons li items ih =>
      cases restored with
      | nil => simp
      | cons item restored =>
          rw [List.map_cons, List.map_cons, List.cons_eq_cons, ih, LogItem.call_eq_cached, List.forall_mem_cons,
            List.map_cons, List.cons_eq_cons]
          tauto

/-- The items come back in their order where the encoding changes none of them and they read the same backwards. -/
theorem readCacheContents_restores_iff (h : ∀ li ∈ items, li.Encodable)
    (hlimit : items.length ≤ MAXLOGENTRIES + MAXLOGENTRIES / 2) :
    ∃ file, items.foldlM writeLogItemToDisk [] = .ok file ∧
      (Restores (readCacheContents file) items ↔
        (∀ li ∈ items, li.restored = li ∧ li.verify) ∧ items.reverse = items) := by
  have hfew : items.length ≤ 2 * MAXLOGENTRIES := Nat.le_trans hlimit (by decide)
  refine ⟨records items, foldlM_writeLogItemToDisk h [], ?_⟩
  rw [readCacheContents_records h hfew]
  constructor
  · rintro ⟨restored, n, hreading, hbuffer⟩
    injection hreading with hcalls
    obtain ⟨hcalls, _⟩ := List.append_inj' hcalls rfl
    obtain ⟨hverify, rfl⟩ := map_call_eq.mp hcalls
    rw [foldl_newLogItem (by simpa using hlimit), List.append_nil] at hbuffer
    have hfixed : ∀ li ∈ items, li.restored = li := fun li hli => by
      rw [← hbuffer, List.mem_reverse, List.mem_map] at hli
      obtain ⟨item, _, rfl⟩ := hli
      exact item.restored_restored
    have hmap : items.map LogItem.restored = items := by
      rw [List.map_congr_left hfixed, List.map_id']
    refine ⟨fun li hli => ⟨hfixed li hli, ?_⟩, by rwa [hmap] at hbuffer⟩
    have := hverify li hli
    rwa [hfixed li hli] at this
  · rintro ⟨hitems, hreverse⟩
    have hmap : items.map LogItem.restored = items := by
      rw [List.map_congr_left fun li hli => (hitems li hli).1, List.map_id']
    refine ⟨items, items.length, ?_, ?_⟩
    · rw [map_call_eq.mpr ⟨fun li hli => ?_, hmap⟩]
      rw [(hitems li hli).1]
      exact (hitems li hli).2
    · rw [foldl_newLogItem (by simpa using hlimit), List.append_nil, hreverse]

end

theorem connectedItem_encodable : connectedItem.Encodable where
  level := by decide
  args := by decide
  bytes := connectedItem_encoded

theorem readCacheContents_restores_iff_connected :
    ∃ file, [connectedItem, connectedItem].foldlM writeLogItemToDisk [] = .ok file ∧
      (Restores (readCacheContents file) [connectedItem, connectedItem] ↔
        (∀ li ∈ [connectedItem, connectedItem], li.restored = li ∧ li.verify) ∧
          [connectedItem, connectedItem].reverse = [connectedItem, connectedItem]) := by
  refine readCacheContents_restores_iff (fun li hli => ?_) (by decide)
  have hmem : ∀ li ∈ [connectedItem, connectedItem], li = connectedItem := by simp
  rw [hmem li hli]
  exact connectedItem_encodable

def disconnectedItem : LogItem := { mMessage := some "getrennt", logtime := 18 }

theorem disconnectedItem_encodable : disconnectedItem.Encodable where
  level := by decide
  args := by decide
  bytes := by
    have hroom : disconnectedItem.Room := by
      rw [LogItem.Room]
      decide
    have hlevel : disconnectedItem.mLevel = some .INFO := rfl
    exact ⟨_, (LogItem.getMarschaledBytes_room hlevel (by decide) hroom).trans (if_pos (by decide))⟩

theorem readCacheContents_reversed : ¬ ∀ items : List LogItem, (∀ li ∈ items, li.Encodable) →
    items.length ≤ MAXLOGENTRIES + MAXLOGENTRIES / 2 →
    ∃ file, items.foldlM writeLogItemToDisk [] = .ok file ∧ Restores (readCacheContents file) items := by
  intro hclaim
  have hencodable : ∀ li ∈ [connectedItem, disconnectedItem], li.Encodable := by
    simp [connectedItem_encodable, disconnectedItem_encodable]
  have hlimit : [connectedItem, disconnectedItem].length ≤ MAXLOGENTRIES + MAXLOGENTRIES / 2 := by decide
  obtain ⟨file, hfile, hrestores⟩ := hclaim _ hencodable hlimit
  obtain ⟨file', hfile', hiff⟩ := readCacheContents_restores_iff hencodable hlimit
  obtain rfl : file = file' := by
    rw [hfile] at hfile'
    exact Except.ok.inj hfile'
  have hreverse := (hiff.mp hrestores).2
  injection hreverse with hhead
  exact absurd hhead (by decide)

/-! ## A damaged cache -/

/-- The reading restores the items of the other records, and beside them only items that stand in `part`. -/
def Survives (before : List LogItem) (part : List UInt8) (after : List LogItem) : Prop :=
  ∃ items : List LogItem,
    (readCacheContents (records before ++ (part ++ records after))).cachedItems =
      before.map LogItem.restored ++ items ++ after.map LogItem.restored ∧
    ∀ li ∈ items, ∃ buf2, Holds part buf2 ∧ LogItem.ofBytes buf2 buf2.length = .ok li

theorem mem_itemsOf {found : List (List UInt8)} {li : LogItem} (h : li ∈ itemsOf found) :
    ∃ buf2 ∈ found, LogItem.ofBytes buf2 buf2.length = .ok li := by
  obtain ⟨buf2, hmem, hitem⟩ := List.mem_filterMap.mp h
  refine ⟨buf2, hmem, ?_⟩
  cases hdecoded : LogItem.ofBytes buf2 buf2.length with
  | error e => rw [hdecoded] at hitem; cases hitem
  | ok item =>
      rw [hdecoded] at hitem
      dsimp only at hitem
      split at hitem
      case isTrue => cases hitem; rfl
      case isFalse => cases hitem

/-- Contained damage changes no item of another record and adds none of its own making. -/
theorem readCacheContents_damaged {before after : List LogItem} {part : List UInt8} {found : List (List UInt8)}
    (hbefore : ∀ li ∈ before, li.Encodable ∧ li.restored.verify)
    (hafter : ∀ li ∈ after, li.Encodable ∧ li.restored.verify)
    (hfew : before.length + (if after = [] then 0 else found.length + after.length) ≤ 2 * MAXLOGENTRIES + 1)
    (hpart : Contained (after ≠ []) before.length part found) : Survives before part after := by
  have hfirst : 0 + before.length ≤ 2 * MAXLOGENTRIES + 1 := by omega
  refine ⟨itemsOf found, ?_, fun li hli => ?_⟩
  · rw [readCacheContents_eq_scan, cachedItems_records hbefore hfirst, Nat.zero_add, hpart.cachedItems hafter,
      List.append_assoc]
    intro hne
    rw [if_neg hne] at hfew
    omega
  · obtain ⟨buf2, hmem, hdecoded⟩ := mem_itemsOf hli
    exact ⟨buf2, (hpart.holds buf2 hmem).mono (List.tail_suffix part).isInfix, hdecoded⟩

theorem readCacheContents_damaged_connected : Survives [connectedItem] [0x54, 0x53] [disconnectedItem] := by
  have hbefore : ∀ li ∈ [connectedItem], li.Encodable ∧ li.restored.verify := by
    rw [List.forall_mem_singleton]
    exact ⟨connectedItem_encodable, by decide⟩
  have hafter : ∀ li ∈ [disconnectedItem], li.Encodable ∧ li.restored.verify := by
    rw [List.forall_mem_singleton]
    exact ⟨disconnectedItem_encodable, by decide⟩
  have hcontained : Contained ([disconnectedItem] ≠ []) [connectedItem].length [0x54, 0x53] [] :=
    .garbage (by decide) (by decide) (by decide)
  exact readCacheContents_damaged hbefore hafter (by decide) hcontained

/-- A record of no bytes: the item behind it is lost. -/
theorem readCacheContents_emptyRecord : ¬ ∀ (before after : List LogItem) (part : List UInt8),
    (∀ li ∈ before, li.Encodable ∧ li.restored.verify) → (∀ li ∈ after, li.Encodable ∧ li.restored.verify) →
    before.length + after.length ≤ MAXLOGENTRIES → Survives before part after := by
  intro hclaim
  have hafter : ∀ li ∈ [disconnectedItem], li.Encodable ∧ li.restored.verify := by
    rw [List.forall_mem_singleton]
    exact ⟨disconnectedItem_encodable, by decide⟩
  obtain ⟨items, hcached, -⟩ := hclaim [] [disconnectedItem] [0x55, 0, 0, 0, 0] (by simp) hafter (by decide)
  have hcontent : contentIn [0, 0, 0, 0] [] = .complete [] [] := by decide
  have herror : restoreLogItem [] (lengthOf [0, 0, 0, 0]) = .error .bufferUnderflow := by decide
  have hempty := cachedItems_refused (Nat.zero_le _) (List.not_mem_nil (a := MAGIC_BYTE)) (by decide) (by decide)
    hcontent herror (readByte_records [disconnectedItem])
  rw [readCacheContents_eq_scan] at hcached
  have hlost : [] = items ++ [disconnectedItem.restored] := hempty.symm.trans hcached
  simp at hlost

end AllInSafe.Log
