import AllInSafe.Log.Damage
import AllInSafe.Log.Lemmas.Records

/-!
# Reading past damage
-/

namespace AllInSafe.Log
open AllInSafe.Library

/-! ## A part of a content -/

/-- The content that begins in a part of a file and goes on behind it. -/
def PartContent.resume (file : List UInt8) : PartContent → Content
  | .complete buf2 part => .complete buf2 (part ++ file)
  | .aborted call part => .aborted call (part ++ file)
  | .overrun => .overrun
  | .cut n buf2 => readContent n buf2 file
  | .cutEscape => .aborted (.badEscape (readByte file).1) (readByte file).2

/-- What a part of a content says about the part. -/
def PartContent.Fits (n : Nat) (buf2 part : List UInt8) : PartContent → Prop
  | .complete bytes rest => bytes.length = buf2.length + n ∧
      ∃ content, part = content ++ rest ∧ partContent n buf2 content = .complete bytes []
  | .aborted call rest => call.item = none ∧ rest <:+ part
  | .cut m _ => 0 < m
  | .overrun | .cutEscape => True

section

variable {n : Nat} {buf2 part file : List UInt8}

/-- The byte that a content goes on with, as far as the part reaches. -/
def storePart (n : Nat) (buf2 : List UInt8) (b : UInt8) (part : List UInt8) : PartContent :=
  if buf2.length < bufLength then partContent n (buf2 ++ [b]) part else .overrun

theorem partContent_plain {b : UInt8} (hmagic : b ≠ MAGIC_BYTE) (hescape : b ≠ MAGIC_BYTE + 1) :
    partContent (n + 1) buf2 (b :: part) = storePart n buf2 b part := by
  rw [partContent.eq_def]
  dsimp only
  rw [if_neg hmagic, if_neg hescape]
  rfl

theorem partContent_magic :
    partContent (n + 1) buf2 (MAGIC_BYTE :: part) = .aborted (.unexpectedMagic buf2.length) part := by
  rw [partContent.eq_def]
  dsimp only
  rw [if_pos rfl]

theorem partContent_escape (b : UInt8) : partContent (n + 1) buf2 ((MAGIC_BYTE + 1) :: b :: part) =
    if b = 0 then storePart n buf2 MAGIC_BYTE part
    else if b = 1 then storePart n buf2 (MAGIC_BYTE + 1) part
    else .aborted (.badEscape b) part := by
  rw [partContent, if_neg (by decide), if_pos rfl]
  rfl

theorem partContent_lastEscape : partContent (n + 1) buf2 [MAGIC_BYTE + 1] = .cutEscape := by
  rw [partContent, if_neg (by decide), if_pos rfl]

/-- One byte of a part, with the one behind an escape. -/
theorem part_cases (part : List UInt8) : part = [] ∨ (∃ rest, part = MAGIC_BYTE :: rest) ∨ part = [MAGIC_BYTE + 1] ∨
    (∃ b rest, part = (MAGIC_BYTE + 1) :: b :: rest) ∨
    ∃ b rest, b ≠ MAGIC_BYTE ∧ b ≠ MAGIC_BYTE + 1 ∧ part = b :: rest := by
  match part with
  | [] => exact .inl rfl
  | b :: rest =>
      by_cases hmagic : b = MAGIC_BYTE
      · exact .inr (.inl ⟨rest, by rw [hmagic]⟩)
      by_cases hescape : b = MAGIC_BYTE + 1
      · match rest with
        | [] => exact .inr (.inr (.inl (by rw [hescape])))
        | c :: rest => exact .inr (.inr (.inr (.inl ⟨c, rest, by rw [hescape]⟩)))
      · exact .inr (.inr (.inr (.inr ⟨b, rest, hmagic, hescape, rfl⟩)))

theorem readContent_append (hfile : (readByte file).1 ≠ 0 ∧ (readByte file).1 ≠ 1) :
    readContent n buf2 (part ++ file) = (partContent n buf2 part).resume file := by
  induction n generalizing buf2 part with
  | zero => rfl
  | succ n ih =>
      have hstore : ∀ b part, store n buf2 b (part ++ file) = (storePart n buf2 b part).resume file := fun b part => by
        rw [store, storePart]
        split
        case isTrue => exact ih
        case isFalse => rfl
      rcases part_cases part with rfl | ⟨rest, rfl⟩ | rfl | ⟨b, rest, rfl⟩ | ⟨b, rest, hmagic, hescape, rfl⟩
      · rfl
      · rw [List.cons_append, readContent_magic, partContent_magic]
        rfl
      · rw [partContent_lastEscape, List.singleton_append, readContent, readByte]
        dsimp only
        rw [if_neg (by decide), if_pos rfl, if_neg hfile.1, if_neg hfile.2]
        rfl
      · rw [List.cons_append, List.cons_append, readContent_escape, partContent_escape]
        split
        case isTrue => exact hstore _ _
        split
        case isTrue => exact hstore _ _
        case isFalse => rfl
      · rw [List.cons_append, readContent_plain hmagic hescape, partContent_plain hmagic hescape]
        exact hstore _ _

theorem storePart_fits (pre : List UInt8) {b : UInt8}
    (hpart : ∀ part, partContent (n + 1) buf2 (pre ++ part) = storePart n buf2 b part)
    (ih : (partContent n (buf2 ++ [b]) part).Fits n (buf2 ++ [b]) part) :
    (storePart n buf2 b part).Fits (n + 1) buf2 (pre ++ part) := by
  by_cases hroom : buf2.length < bufLength
  · rw [storePart, if_pos hroom]
    cases hcontent : partContent n (buf2 ++ [b]) part with
    | complete bytes rest =>
        rw [hcontent] at ih
        obtain ⟨hlength, content, hsplit, hwhole⟩ := ih
        rw [List.length_append, List.length_singleton] at hlength
        refine ⟨by omega, pre ++ content, by rw [hsplit, List.append_assoc], ?_⟩
        rw [hpart, storePart, if_pos hroom, hwhole]
    | aborted call rest =>
        rw [hcontent] at ih
        exact ⟨ih.1, ih.2.trans (List.suffix_append pre part)⟩
    | cut m bytes => rw [hcontent] at ih; exact ih
    | overrun | cutEscape => trivial
  · rw [storePart, if_neg hroom]
    trivial

theorem partContent_fits (n : Nat) (buf2 part : List UInt8) : (partContent n buf2 part).Fits n buf2 part := by
  induction n generalizing buf2 part with
  | zero => exact ⟨rfl, [], rfl, rfl⟩
  | succ n ih =>
      rcases part_cases part with rfl | ⟨rest, rfl⟩ | rfl | ⟨b, rest, rfl⟩ | ⟨b, rest, hmagic, hescape, rfl⟩
      · exact Nat.succ_pos n
      · rw [partContent_magic]
        exact ⟨rfl, List.suffix_cons _ rest⟩
      · rw [partContent_lastEscape]
        trivial
      · rw [partContent_escape]
        split
        case isTrue hb =>
            subst hb
            exact storePart_fits [MAGIC_BYTE + 1, 0] (fun part => partContent_escape 0) (ih _ _)
        split
        case isTrue hb =>
            subst hb
            exact storePart_fits [MAGIC_BYTE + 1, 1] (fun part => partContent_escape 1) (ih _ _)
        case isFalse => exact ⟨rfl, List.suffix_append [MAGIC_BYTE + 1, b] rest⟩
      · rw [partContent_plain hmagic hescape]
        exact storePart_fits [b] (fun part => partContent_plain hmagic hescape) (ih _ _)

end

/-! ## The end of the file -/

section

variable {n : Nat} {buf2 : List UInt8}

theorem readContent_end : readContent (n + 1) buf2 [] = store n buf2 0xFF [] := by
  rw [readContent, readByte]
  dsimp only
  rw [if_neg (by decide), if_neg (by decide)]
  rfl

theorem readContent_padding (h : buf2.length + n ≤ bufLength) :
    readContent n buf2 [] = .complete (buf2 ++ List.replicate n 0xFF) [] := by
  induction n generalizing buf2 with
  | zero => rw [List.replicate_zero, List.append_nil]; rfl
  | succ n ih =>
      rw [readContent_end, store, if_pos (by omega), ih, List.replicate_succ, List.append_assoc]
      · rfl
      · rw [List.length_append, List.length_singleton]
        omega

theorem readContent_overrun (hn : 0 < n) (h : bufLength < buf2.length + n) : readContent n buf2 [] = .overrun := by
  induction n generalizing buf2 with
  | zero => exact absurd hn (Nat.lt_irrefl 0)
  | succ n ih =>
      rw [readContent_end, store]
      split
      case isTrue hroom =>
          have hlength : (buf2 ++ [0xFF]).length = buf2.length + 1 := by simp
          exact ih (by omega) (by omega)
      case isFalse => rfl

end

/-! ## Items -/

theorem cachedItems_after (r : Reading) (calls : List LogCall) :
    (r.after calls).cachedItems = calls.filterMap LogCall.item ++ r.cachedItems := List.filterMap_append

theorem cachedItems_close (thrown : Option Throwable) (n : Nat) : (close thrown n).cachedItems = [] := by
  rw [close, Reading.cachedItems]
  split
  case isTrue => rfl
  case isFalse => rfl

theorem filterMap_item (call : LogCall) : [call].filterMap LogCall.item = call.item.toList := by
  cases call <;> rfl

theorem cachedItems_scan_many {itemsRead : Nat} (h : 2 * MAXLOGENTRIES < itemsRead) (bytes : List UInt8) :
    (scan itemsRead bytes).cachedItems = [] := by
  rw [scan_many h, cachedItems_after, cachedItems_close]
  rfl

/-- The call that answers a whole content, as an item. -/
theorem itemsOf_cons {buf2 : List UInt8} {len : BitVec 32} {call : LogCall} (hlength : buf2.length = len.toInt.toNat)
    (hcall : restoreLogItem buf2 len = .ok call) (found : List (List UInt8)) :
    itemsOf (buf2 :: found) = call.item.toList ++ itemsOf found := by
  have hint : 0 ≤ len.toInt := by
    by_contra hneg
    rw [restoreLogItem, LogItem.ofBytes, if_pos (.inl (by omega))] at hcall
    cases hcall
  have hlen : (buf2.length : Int) = len.toInt := by omega
  rw [restoreLogItem, ← hlen] at hcall
  rw [itemsOf, List.filterMap_cons, ← itemsOf]
  cases hitem : LogItem.ofBytes buf2 buf2.length with
  | error e => rw [hitem] at hcall; cases hcall
  | ok li =>
      rw [hitem] at hcall
      change Except.ok (if li.verify then _ else _) = _ at hcall
      dsimp only
      split at hcall
      case isTrue hverify => cases hcall; rw [if_pos hverify]; rfl
      case isFalse hverify => cases hcall; rw [if_neg hverify]; rfl

section

variable {itemsRead : Nat} {garbage length file : List UInt8} {calls : List LogCall} {next : Rest}

/-- A header behind garbage. -/
theorem cachedItems_scan (hfew : itemsRead ≤ 2 * MAXLOGENTRIES) (hmagic : MAGIC_BYTE ∉ garbage)
    (hbound : garbage.length + 10 ≤ bufLength) (hlength : length.length = 4)
    (hitem : scanItem (garbage.headD MAGIC_BYTE) (length ++ file) = (calls, next)) :
    (scan itemsRead (garbage ++ MAGIC_BYTE :: (length ++ file))).cachedItems =
      calls.filterMap LogCall.item ++ (next.reading itemsRead).cachedItems := by
  have hfour : 4 ≤ (length ++ file).length := by rw [List.length_append]; omega
  have hlocate := locate_append hmagic hfour 0 (by omega)
  have hdebug : ∀ skipped, (if skipped > 0 then [LogCall.skipped skipped] else []).filterMap LogCall.item = [] :=
    fun skipped => by split <;> rfl
  cases garbage with
  | nil =>
      rw [List.nil_append] at hlocate ⊢
      rw [scan_eq hfew (scanStep_some hfour hlocate hitem), cachedItems_after, List.filterMap_append, hdebug]
      rfl
  | cons first garbage =>
      rw [List.cons_append] at hlocate ⊢
      rw [scan_eq hfew (scanStep_some (by rw [List.length_append, List.length_cons]; omega) hlocate hitem),
        cachedItems_after, List.filterMap_append, hdebug]
      rfl

/-- The content of the header, as the scan looks at it. -/
theorem readContent_contentIn (part : List UInt8) (hlength : length.length = 4)
    (hfile : (readByte file).1 ≠ 0 ∧ (readByte file).1 ≠ 1) :
    lengthOf (length ++ (part ++ file)) = lengthOf length ∧
      readContent (lengthOf (length ++ (part ++ file))).toInt.toNat [] ((length ++ (part ++ file)).drop 4) =
        (contentIn length part).resume file := by
  obtain ⟨hlen, hdrop⟩ := lengthOf_append length (part ++ file) hlength
  have hself : lengthOf length = BitVec.ofNat 32 (BigEndian.value length) := by
    rw [lengthOf, ← hlength, List.take_length]
  rw [hlen, hdrop, contentIn, hself]
  exact ⟨rfl, readContent_append hfile⟩

end

theorem readByte_records (items : List LogItem) :
    (readByte (records items)).1 ≠ 0 ∧ (readByte (records items)).1 ≠ 1 := by
  cases items with
  | nil => decide
  | cons li items =>
      have hbyte : (readByte (records (li :: items))).1 = MAGIC_BYTE := by
        rw [records_cons, writeEscapedBytes_append]
        rfl
      rw [hbyte]
      decide

theorem cachedItems_scan_short (itemsRead : Nat) {bytes : List UInt8} (h : bytes.length < 5) :
    (scan itemsRead bytes).cachedItems = [] := by
  rcases Nat.lt_or_ge (2 * MAXLOGENTRIES) itemsRead with hmany | hfew
  · exact cachedItems_scan_many hmany bytes
  · rw [scan_eq hfew (scanStep_short h)]
    exact cachedItems_close none itemsRead

theorem cachedItems_noHeader (itemsRead : Nat) {part : List UInt8}
    (h : part.length < 5 ∨ (locate 0 part).2 = none) : (scan itemsRead part).cachedItems = [] := by
  rcases Nat.lt_or_ge (2 * MAXLOGENTRIES) itemsRead with hmany | hfew
  · exact cachedItems_scan_many hmany part
  rcases Nat.lt_or_ge part.length 5 with hshort | hlong
  · exact cachedItems_scan_short itemsRead hshort
  obtain ⟨first, rest, rfl⟩ := List.exists_cons_of_length_pos (Nat.lt_of_lt_of_le (by decide) hlong)
  have hnone : locate 0 (first :: rest) = ((locate 0 (first :: rest)).1, none) := by
    rw [← h.resolve_left (by omega)]
  rw [scan_eq hfew (scanStep_none (Nat.le_of_succ_le_succ hlong) hnone)]
  exact cachedItems_close none itemsRead

/-! ## Records behind the damage -/

section

variable {items : List LogItem} (hitems : ∀ li ∈ items, li.Encodable ∧ li.restored.verify)

include hitems

theorem item_call : (items.map LogItem.call).filterMap LogCall.item = items.map LogItem.restored := by
  induction items with
  | nil => rfl
  | cons li items ih =>
      rw [List.forall_mem_cons] at hitems
      have hcall : li.call.item = some li.restored := by
        rw [LogItem.call, if_pos hitems.1.2]
        rfl
      rw [List.map_cons, List.filterMap_cons_some hcall, ih hitems.2, List.map_cons]

theorem cachedItems_records {itemsRead : Nat} (hfew : itemsRead + items.length ≤ 2 * MAXLOGENTRIES + 1)
    (file : List UInt8) : (scan itemsRead (records items ++ file)).cachedItems =
      items.map LogItem.restored ++ (scan (itemsRead + items.length) file).cachedItems := by
  rw [scan_records (fun li hli => (hitems li hli).1) _ hfew, cachedItems_after, item_call hitems]

theorem cachedItems_records_nil {itemsRead : Nat} (hfew : itemsRead + items.length ≤ 2 * MAXLOGENTRIES + 1) :
    (scan itemsRead (records items)).cachedItems = items.map LogItem.restored := by
  have hnil : (scan (itemsRead + items.length) []).cachedItems = [] := cachedItems_scan_short _ (by decide)
  have hscan := cachedItems_records hitems hfew []
  rwa [hnil, List.append_nil, List.append_nil] at hscan

theorem cachedItems_garbage {itemsRead : Nat} {garbage : List UInt8} (hne : items ≠ [])
    (hfew : itemsRead + items.length ≤ 2 * MAXLOGENTRIES + 1) (hmagic : MAGIC_BYTE ∉ garbage)
    (hbound : garbage.length + 10 ≤ bufLength) :
    (scan itemsRead (garbage ++ records items)).cachedItems = items.map LogItem.restored := by
  cases items with
  | nil => exact absurd rfl hne
  | cons li items =>
      rw [List.forall_mem_cons] at hitems
      obtain ⟨⟨hli, hverify⟩, hitems⟩ := hitems
      rw [List.length_cons] at hfew
      have hlength := (lengthOf_lengthBytes li.wire (li.wire.flatMap escapeByte ++ records items)).1
      have hcall := hli.restore
      rw [← hlength] at hcall
      have hitem : li.call.item = some li.restored := by
        rw [LogItem.call, if_pos hverify]
        rfl
      have hread := readContent_record (records items) hli.wire.2
      rw [records_cons, writeEscapedBytes_append, cachedItems_scan (by omega) hmagic hbound (length_lengthBytes _)
        (scanItem_restored hread hcall), List.filterMap_cons_some hitem]
      show li.restored :: (scan (itemsRead + 1) (records items)).cachedItems = _
      rw [cachedItems_records_nil hitems (by omega), List.map_cons]

end

/-! ## Contained damage -/

section

variable {itemsRead : Nat} {garbage length part buf2 rest file : List UInt8} {items : List LogItem} {call : LogCall}

/-- A part without a magic byte in front of a record. -/
theorem resume_cut (li : LogItem) (items : List LogItem)
    (hcontent : contentIn length part = .cutEscape ∨ ∃ n buf2, contentIn length part = .cut n buf2) :
    ∃ call, call.item = none ∧ (contentIn length part).resume (records (li :: items)) =
      .aborted call (lengthBytes li.wire ++ (li.wire.flatMap escapeByte ++ records items)) := by
  rw [records_cons, writeEscapedBytes_append]
  rcases hcontent with hcut | ⟨n, buf2, hcut⟩
  · exact ⟨_, rfl, by rw [hcut]; rfl⟩
  · have hpos : 0 < n := by
      have hfits := partContent_fits (lengthOf length).toInt.toNat [] part
      rw [← contentIn, hcut] at hfits
      exact hfits
    obtain ⟨m, rfl⟩ := Nat.exists_eq_succ_of_ne_zero (Nat.pos_iff_ne_zero.mp hpos)
    refine ⟨.unexpectedMagic buf2.length, rfl, ?_⟩
    rw [hcut]
    show readContent (m + 1) buf2 (MAGIC_BYTE :: _) = _
    rw [readContent_magic]

theorem cachedItems_cut (hitems : ∀ li ∈ items, li.Encodable ∧ li.restored.verify) (hne : items ≠ [])
    (hfew : itemsRead + items.length ≤ 2 * MAXLOGENTRIES + 1) (hlength : length.length = 4)
    (hcontent : contentIn length part = .cutEscape ∨ ∃ n buf2, contentIn length part = .cut n buf2) :
    (scan itemsRead (MAGIC_BYTE :: (length ++ (part ++ records items)))).cachedItems =
      items.map LogItem.restored := by
  cases items with
  | nil => exact absurd rfl hne
  | cons li items =>
      have hread := (readContent_contentIn part hlength (readByte_records (li :: items))).2
      obtain ⟨call, hnone, haborted⟩ := resume_cut li items hcontent
      rw [haborted] at hread
      have hwhole := cachedItems_records_nil hitems hfew
      rw [List.length_cons] at hfew
      have hle : itemsRead ≤ 2 * MAXLOGENTRIES := by omega
      have hscan := cachedItems_scan hle (List.not_mem_nil (a := MAGIC_BYTE)) (by decide) hlength (scanItem_aborted hread)
      rw [List.nil_append] at hscan
      rw [hscan, List.filterMap_cons_none hnone]
      show (scan itemsRead (MAGIC_BYTE :: _)).cachedItems = _
      rw [← writeEscapedBytes_append, ← records_cons]
      exact hwhole

/-- A content that a byte ends before its length is reached. -/
theorem cachedItems_aborted (hfew : itemsRead ≤ 2 * MAXLOGENTRIES) (hmagic : MAGIC_BYTE ∉ garbage)
    (hbound : garbage.length + 10 ≤ bufLength) (hlength : length.length = 4)
    (hcontent : contentIn length part = .aborted call rest)
    (hfile : (readByte file).1 ≠ 0 ∧ (readByte file).1 ≠ 1) :
    (scan itemsRead (garbage ++ MAGIC_BYTE :: (length ++ (part ++ file)))).cachedItems =
      (scan itemsRead (garbage.headD MAGIC_BYTE :: (rest ++ file))).cachedItems := by
  have hread := (readContent_contentIn part hlength hfile).2
  have hfits := partContent_fits (lengthOf length).toInt.toNat [] part
  rw [← contentIn, hcontent] at hfits
  rw [hcontent] at hread
  rw [cachedItems_scan hfew hmagic hbound hlength (scanItem_aborted hread), List.filterMap_cons_none hfits.1]
  rfl

theorem cachedItems_item (hfew : itemsRead ≤ 2 * MAXLOGENTRIES) (hmagic : MAGIC_BYTE ∉ garbage)
    (hbound : garbage.length + 10 ≤ bufLength) (hlength : length.length = 4)
    (hcontent : contentIn length part = .complete buf2 rest)
    (hcall : restoreLogItem buf2 (lengthOf length) = .ok call)
    (hfile : (readByte file).1 ≠ 0 ∧ (readByte file).1 ≠ 1) :
    (scan itemsRead (garbage ++ MAGIC_BYTE :: (length ++ (part ++ file)))).cachedItems =
      itemsOf [buf2] ++ (scan (itemsRead + 1) (rest ++ file)).cachedItems := by
  obtain ⟨hlen, hread⟩ := readContent_contentIn part hlength hfile
  have hfits := partContent_fits (lengthOf length).toInt.toNat [] part
  rw [← contentIn, hcontent] at hfits
  rw [hcontent] at hread
  rw [← hlen] at hcall
  have hcount : buf2.length = (lengthOf (length ++ (part ++ file))).toInt.toNat := by
    rw [hfits.1, hlen, List.length_nil, Nat.zero_add]
  rw [cachedItems_scan hfew hmagic hbound hlength (scanItem_restored hread hcall), itemsOf_cons hcount hcall,
    filterMap_item, List.append_assoc]
  rfl

/-- A content that the constructor refuses ends the reading. -/
theorem cachedItems_refused {e : Throwable} (hfew : itemsRead ≤ 2 * MAXLOGENTRIES) (hmagic : MAGIC_BYTE ∉ garbage)
    (hbound : garbage.length + 10 ≤ bufLength) (hlength : length.length = 4)
    (hcontent : contentIn length part = .complete buf2 rest)
    (he : restoreLogItem buf2 (lengthOf length) = .error e)
    (hfile : (readByte file).1 ≠ 0 ∧ (readByte file).1 ≠ 1) :
    (scan itemsRead (garbage ++ MAGIC_BYTE :: (length ++ (part ++ file)))).cachedItems = [] := by
  obtain ⟨hlen, hread⟩ := readContent_contentIn part hlength hfile
  rw [hcontent] at hread
  rw [← hlen] at he
  rw [cachedItems_scan hfew hmagic hbound hlength (scanItem_refused hread he)]
  exact cachedItems_close (some e) itemsRead

/-- The last content of the file. -/
theorem cachedItems_ended (hfew : itemsRead ≤ 2 * MAXLOGENTRIES) (hmagic : MAGIC_BYTE ∉ garbage)
    (hbound : garbage.length + 10 ≤ bufLength) (hlength : length.length = 4) (hcontent : Harmless length part) :
    (scan itemsRead (garbage ++ MAGIC_BYTE :: (length ++ part))).cachedItems = [] := by
  obtain ⟨hlen, hread⟩ := readContent_contentIn part hlength (readByte_records [])
  have hfile : records [] = [] := rfl
  have hitem : ∀ calls next, scanItem (garbage.headD MAGIC_BYTE) (length ++ part) = (calls, next) →
      calls.filterMap LogCall.item = [] → (next.reading itemsRead).cachedItems = [] →
      (scan itemsRead (garbage ++ MAGIC_BYTE :: (length ++ part))).cachedItems = [] := fun calls next hnext hcalls hrest => by
    rw [cachedItems_scan hfew hmagic hbound hlength hnext, hcalls, hrest]
    rfl
  rw [hfile, List.append_nil] at hlen hread
  rw [Harmless] at hcontent
  cases hpart : contentIn length part with
  | complete buf2 rest =>
      rw [hpart] at hcontent hread
      obtain ⟨e, he⟩ := hcontent
      rw [← hlen] at he
      exact hitem _ _ (scanItem_refused hread he) rfl (cachedItems_close _ _)
  | aborted => rw [hpart] at hcontent; exact hcontent.elim
  | overrun =>
      rw [hpart] at hread
      exact hitem _ _ (scanItem_overrun hread) rfl (cachedItems_close _ _)
  | cutEscape =>
      rw [hpart] at hread
      exact hitem _ _ (scanItem_aborted hread) rfl (cachedItems_scan_short _ (by simp [readByte]))
  | cut n buf2 =>
      have hfits := partContent_fits (lengthOf length).toInt.toNat [] part
      rw [← contentIn, hpart] at hfits
      rw [hpart] at hcontent hread
      change _ = readContent n buf2 [] at hread
      rcases Nat.lt_or_ge bufLength (buf2.length + n) with hlong | hroom
      · rw [readContent_overrun hfits hlong] at hread
        exact hitem _ _ (scanItem_overrun hread) rfl (cachedItems_close _ _)
      · have hno := hcontent hroom
        rw [← hlen] at hno
        rw [readContent_padding hroom] at hread
        cases hcall : restoreLogItem (buf2 ++ List.replicate n 0xFF) (lengthOf (length ++ part)) with
        | error e => exact hitem _ _ (scanItem_refused hread hcall) rfl (cachedItems_close _ _)
        | ok call =>
            refine hitem _ _ (scanItem_restored hread hcall) ?_ (cachedItems_scan_short _ (by decide))
            cases call with
            | cached li => exact absurd hcall (hno li)
            | _ => rfl

end

/-- The reader restores the records behind contained damage, and what the damage holds. -/
theorem Contained.cachedItems {itemsRead : Nat} {part : List UInt8} {found : List (List UInt8)} {items : List LogItem}
    (h : Contained (items ≠ []) itemsRead part found)
    (hitems : ∀ li ∈ items, li.Encodable ∧ li.restored.verify)
    (hfew : items ≠ [] → itemsRead + found.length + items.length ≤ 2 * MAXLOGENTRIES + 1) :
    (scan itemsRead (part ++ records items)).cachedItems = itemsOf found ++ items.map LogItem.restored := by
  have hfile := readByte_records items
  induction h with
  | garbage hmore hmagic hbound => exact cachedItems_garbage hitems hmore (hfew hmore) hmagic hbound
  | cut hmore hlength hcontent =>
      rw [List.cons_append, List.append_assoc]
      exact cachedItems_cut hitems hmore (hfew hmore) hlength hcontent
  | @aborted itemsRead garbage length part rest found call hmagic hbound hlength hcontent hrest ih =>
      rw [List.append_assoc, List.cons_append, List.append_assoc, ← ih hfew]
      rcases Nat.lt_or_ge (2 * MAXLOGENTRIES) itemsRead with hmany | hle
      · rw [cachedItems_scan_many hmany, cachedItems_scan_many hmany]
      · exact cachedItems_aborted hle hmagic hbound hlength hcontent hfile
  | @item itemsRead garbage length part buf2 rest found call hle hmagic hbound hlength hcontent hcall hrest ih =>
      have hnext : items ≠ [] → itemsRead + 1 + found.length + items.length ≤ 2 * MAXLOGENTRIES + 1 := fun hne => by
        have := hfew hne
        rw [List.length_cons] at this
        omega
      rw [List.append_assoc, List.cons_append, List.append_assoc,
        cachedItems_item hle hmagic hbound hlength hcontent hcall hfile, ih hnext, ← List.append_assoc]
      rw [itemsOf, itemsOf, itemsOf, ← List.filterMap_append]
      rfl
  | unread hlast hmany =>
      obtain rfl := not_not.mp hlast
      exact cachedItems_scan_many hmany _
  | @noHeader itemsRead part hlast hpart =>
      obtain rfl := not_not.mp hlast
      rw [records, List.flatMap_nil, List.append_nil]
      exact cachedItems_noHeader itemsRead hpart
  | @ended itemsRead garbage length part hlast hmagic hbound hlength hcontent =>
      obtain rfl := not_not.mp hlast
      rw [records, List.flatMap_nil, List.append_nil]
      rcases Nat.lt_or_ge (2 * MAXLOGENTRIES) itemsRead with hmany | hle
      · exact cachedItems_scan_many hmany _
      · exact cachedItems_ended hle hmagic hbound hlength hcontent

/-! ## What the damage holds -/

theorem Holds.mono {part whole buf2 : List UInt8} (h : Holds part buf2) (hpart : part <:+: whole) : Holds whole buf2 := by
  obtain ⟨length, content, hinfix, hlength, hcontent⟩ := h
  exact ⟨length, content, hinfix.trans hpart, hlength, hcontent⟩

/-- The bytes behind the first one hold every content that the reader takes for an item. -/
theorem Contained.holds {more : Prop} {itemsRead : Nat} {part : List UInt8} {found : List (List UInt8)}
    (h : Contained more itemsRead part found) : ∀ buf2 ∈ found, Holds part.tail buf2 := by
  have htail : ∀ garbage file : List UInt8, file <:+ (garbage ++ MAGIC_BYTE :: file).tail := fun garbage file => by
    cases garbage with
    | nil => exact List.suffix_rfl
    | cons first garbage => exact (List.suffix_cons _ _).trans (List.suffix_append garbage _)
  induction h with
  | @aborted itemsRead garbage length part rest found call hmagic hbound hlength hcontent hrest ih =>
      have hfits := partContent_fits (lengthOf length).toInt.toNat [] part
      rw [← contentIn, hcontent] at hfits
      have hsuffix := (hfits.2.trans (List.suffix_append length part)).trans (htail garbage (length ++ part))
      exact fun buf2 hmem => (ih buf2 hmem).mono hsuffix.isInfix
  | @item itemsRead garbage length part buf2 rest found call hle hmagic hbound hlength hcontent hcall hrest ih =>
      have hfits := partContent_fits (lengthOf length).toInt.toNat [] part
      rw [← contentIn, hcontent] at hfits
      obtain ⟨-, content, rfl, hwhole⟩ := hfits
      have hpart := htail garbage (length ++ (content ++ rest))
      refine List.forall_mem_cons.mpr ⟨⟨length, content, ?_, hlength, hwhole⟩, fun bytes hmem => ?_⟩
      · have hprefix : length ++ content <+: length ++ (content ++ rest) := by
          rw [← List.append_assoc]
          exact List.prefix_append (length ++ content) rest
        exact hprefix.isInfix.trans hpart.isInfix
      · have hrest : rest <:+ length ++ (content ++ rest) :=
          (List.suffix_append content rest).trans (List.suffix_append length _)
        exact (ih bytes hmem).mono (((List.tail_suffix rest).trans hrest).trans hpart).isInfix
  | garbage | cut | unread | noHeader | ended => exact fun buf2 hmem => absurd hmem List.not_mem_nil

end AllInSafe.Log
