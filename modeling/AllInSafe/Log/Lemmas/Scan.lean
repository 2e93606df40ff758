import AllInSafe.Log.Scan

/-!
# The loop and the scan

The loop of the reader makes the calls of the scan over its header and the rest of the file.
-/

namespace AllInSafe.Log
open AllInSafe.Library

/-- The five bytes of a header at `k`. -/
def window (buf : Bytes) (k : Nat) : List UInt8 := [buf k, buf (k + 1), buf (k + 2), buf (k + 3), buf (k + 4)]

def Rest.reading (itemsRead : Nat) : Rest → Reading
  | .stop thrown => close thrown itemsRead
  | .goOn read bytes => scan (itemsRead + read) bytes

section

variable {buf : Bytes} {file bytes rest : List UInt8} {itemsRead skipped n : Nat} {calls : List LogCall}

/-! ## One step -/

theorem scan_eq {next : Rest} (hfew : itemsRead ≤ 2 * MAXLOGENTRIES) (h : scanStep bytes = (calls, next)) :
    scan itemsRead bytes = (next.reading itemsRead).after calls := by
  rw [scan, if_neg (Nat.not_lt.mpr hfew)]
  split
  case h_1 thrown hstep => rw [hstep] at h; cases h; rfl
  case h_2 read rest hstep => rw [hstep] at h; cases h; rfl

theorem scan_many (h : 2 * MAXLOGENTRIES < itemsRead) :
    scan itemsRead bytes = (close none itemsRead).after [.tooMany] := by
  rw [scan, if_pos h]

theorem readloop_eq {next : Next} (h : readIteration buf file itemsRead = (calls, next)) :
    readloop buf file itemsRead = next.reading.after calls := by
  rw [readloop]
  split
  case h_1 hiteration => rw [hiteration] at h; cases h; rfl
  case h_2 hiteration => rw [hiteration] at h; cases h; rfl

/-! ## The search for a magic byte -/

theorem findMagic_none (h : locate skipped (window buf skipped ++ file) = (n, none)) :
    findMagic buf skipped file = (n, none) := by
  induction file generalizing buf skipped with
  | nil =>
      rw [window, List.cons_append, locate] at h
      rw [findMagic]
      split at h
      case isTrue => cases h
      case isFalse hmagic =>
          rw [if_neg hmagic]
          rw [if_pos (.inl (by simp))] at h
          cases h
          rfl
  | cons b file ih =>
      rw [window, List.cons_append, locate] at h
      rw [findMagic]
      split at h
      case isTrue => cases h
      case isFalse hmagic =>
          rw [if_neg hmagic]
          split at h
          case isTrue hstop =>
              have hbound : skipped + 1 + 10 > bufLength := by
                rcases hstop with hshort | hbound
                · simp at hshort
                  omega
                · exact hbound
              rw [if_pos hbound]
              cases h
              rfl
          case isFalse hgo =>
              rw [if_neg fun hbound => hgo (.inr hbound)]
              refine ih ?_
              rw [← h]
              simp [window, readInto, Nat.add_assoc]

theorem findMagic_some {found : List UInt8} (h : locate skipped (window buf skipped ++ file) = (n, some found)) :
    ∃ buf' file', findMagic buf skipped file = (n, some (buf', file')) ∧
      found = (window buf' n).tail ++ file' ∧ ∀ i < skipped + 5, buf' i = buf i := by
  induction file generalizing buf skipped with
  | nil =>
      rw [window, List.cons_append, locate] at h
      rw [findMagic]
      split at h
      case isTrue hmagic =>
          cases h
          exact ⟨buf, [], if_pos hmagic, rfl, fun _ _ => rfl⟩
      case isFalse => rw [if_pos (.inl (by simp))] at h; cases h
  | cons b file ih =>
      rw [window, List.cons_append, locate] at h
      rw [findMagic]
      split at h
      case isTrue hmagic =>
          cases h
          exact ⟨buf, b :: file, if_pos hmagic, rfl, fun _ _ => rfl⟩
      case isFalse hmagic =>
          split at h
          case isTrue => cases h
          case isFalse hgo =>
              have hwindow : locate (skipped + 1)
                  (window (readInto buf (skipped + 1 + 4) 1 (b :: file)).2.1 (skipped + 1) ++ file) =
                    (n, some found) := by
                rw [← h]
                simp [window, readInto, Nat.add_assoc]
              obtain ⟨buf', file', hfind, hfound, hsame⟩ := ih hwindow
              refine ⟨buf', file', ?_, hfound, fun i hi => ?_⟩
              · rw [if_neg hmagic, if_neg fun hbound => hgo (.inr hbound), hfind]
              · rw [hsame i (by omega)]
                simp [readInto]
                omega

/-! ## The next header -/

theorem nextHeader_zero (buf : Bytes) (file : List UInt8) (itemsRead : Nat) :
    (∃ buf', nextHeader buf 0 file itemsRead = .header buf' (file.drop 5) itemsRead ∧
      window buf' 0 ++ file.drop 5 = file) ∨
    file.length < 5 ∧ nextHeader buf 0 file itemsRead = .stop none itemsRead := by
  match file with
  | [] => exact .inr ⟨by decide, rfl⟩
  | [_] | [_, _] | [_, _, _] | [_, _, _, _] => exact .inr ⟨by simp, by simp [nextHeader, readInto]⟩
  | a :: b :: c :: d :: e :: file =>
      refine .inl ⟨(readInto buf 0 5 (a :: b :: c :: d :: e :: file)).2.1, ?_, ?_⟩
      · simp [nextHeader, readInto]
      · simp [window, readInto]

theorem nextHeader_one (buf : Bytes) (file : List UInt8) (itemsRead : Nat) :
    (∃ buf', nextHeader buf 1 file itemsRead = .header buf' (file.drop 4) itemsRead ∧
      window buf' 0 ++ file.drop 4 = buf 0 :: file) ∨
    file.length < 4 ∧ nextHeader buf 1 file itemsRead = .stop none itemsRead := by
  match file with
  | [] => exact .inr ⟨by decide, rfl⟩
  | [_] | [_, _] | [_, _, _] => exact .inr ⟨by simp, by simp [nextHeader, readInto]⟩
  | a :: b :: c :: d :: file =>
      refine .inl ⟨(readInto buf 1 4 (a :: b :: c :: d :: file)).2.1, ?_, ?_⟩
      · simp [nextHeader, readInto]
      · simp [window, readInto]

theorem reading_nextHeader_zero
    (ih : ∀ buf' file', file'.length < file.length → readloop buf' file' itemsRead =
      scan itemsRead (window buf' 0 ++ file')) (hfew : itemsRead ≤ 2 * MAXLOGENTRIES) :
    (nextHeader buf 0 file itemsRead).reading = scan itemsRead file := by
  rcases nextHeader_zero buf file itemsRead with ⟨buf', hheader, hwindow⟩ | ⟨hshort, hstop⟩
  · rw [hheader]
    show readloop buf' (file.drop 5) itemsRead = _
    rw [ih _ _ (nextHeader_lt (by decide) hheader), hwindow]
  · rw [hstop, scan_eq hfew (scanStep_short hshort)]
    rfl

theorem reading_nextHeader_one
    (ih : ∀ buf' file', file'.length < file.length → readloop buf' file' itemsRead =
      scan itemsRead (window buf' 0 ++ file')) (hfew : itemsRead ≤ 2 * MAXLOGENTRIES) :
    (nextHeader buf 1 file itemsRead).reading = scan itemsRead (buf 0 :: file) := by
  rcases nextHeader_one buf file itemsRead with ⟨buf', hheader, hwindow⟩ | ⟨hshort, hstop⟩
  · rw [hheader]
    show readloop buf' (file.drop 4) itemsRead = _
    rw [ih _ _ (nextHeader_lt (by decide) hheader), hwindow]
  · have hfive : (buf 0 :: file).length < 5 := Nat.succ_lt_succ hshort
    rw [hstop, scan_eq hfew (scanStep_short hfive)]
    rfl

/-! ## The loop -/

/-- An item of the loop and of the scan, with what follows it. -/
theorem reading_readItem (buf : Bytes) {len : BitVec 32} {found : List UInt8}
    (ih : ∀ buf' file' n, file'.length < file.length → n ≤ 2 * MAXLOGENTRIES →
      readloop buf' file' n = scan n (window buf' 0 ++ file')) (hfew : itemsRead ≤ 2 * MAXLOGENTRIES)
    (hlength : lengthOf found = len) (hdrop : found.drop 4 = file) :
    (readItem buf len file itemsRead).2.reading.after (readItem buf len file itemsRead).1 =
      ((scanItem (buf 0) found).2.reading itemsRead).after (scanItem (buf 0) found).1 := by
  subst hlength hdrop
  have hle := readContent_le (lengthOf found).toInt.toNat [] (found.drop 4)
  cases hcontent : readContent (lengthOf found).toInt.toNat [] (found.drop 4) with
  | overrun => rw [readItem_overrun hcontent, scanItem_overrun hcontent]; rfl
  | aborted call rest =>
      rw [hcontent] at hle
      rw [readItem_aborted hcontent, scanItem_aborted hcontent]
      exact congrArg (·.after [call])
        (reading_nextHeader_one (fun buf' file' hlt => ih _ _ _ (Nat.lt_of_lt_of_le hlt hle) hfew) hfew)
  | complete buf2 rest =>
      rw [hcontent] at hle
      cases hrestored : restoreLogItem buf2 (lengthOf found) with
      | error e => rw [readItem_refused hcontent hrestored, scanItem_refused hcontent hrestored]; rfl
      | ok call =>
          rw [readItem_restored hcontent hrestored, scanItem_restored hcontent hrestored]
          by_cases hmany : itemsRead + 1 > 2 * MAXLOGENTRIES
          · rw [if_pos hmany]
            show _ = (scan (itemsRead + 1) rest).after [call]
            rw [scan_many hmany]
            rfl
          · have hnext : itemsRead + 1 ≤ 2 * MAXLOGENTRIES := Nat.not_lt.mp hmany
            rw [if_neg hmany]
            exact congrArg (·.after [call])
              (reading_nextHeader_zero (fun buf' file' hlt => ih _ _ _ (Nat.lt_of_lt_of_le hlt hle) hnext) hnext)

theorem after_append (r : Reading) (calls debug : List LogCall) :
    r.after (debug ++ calls) = (r.after calls).after debug := by
  simp [Reading.after]

theorem lengthOf_append (bytes file : List UInt8) (h : bytes.length = 4) :
    lengthOf (bytes ++ file) = BitVec.ofNat 32 (BigEndian.value bytes) ∧ (bytes ++ file).drop 4 = file := by
  rw [lengthOf, List.take_left' h, List.drop_left' h]
  exact ⟨rfl, rfl⟩

end

theorem readloop_eq_scan (buf : Bytes) (file : List UInt8) {itemsRead : Nat} (hfew : itemsRead ≤ 2 * MAXLOGENTRIES) :
    readloop buf file itemsRead = scan itemsRead (window buf 0 ++ file) := by
  induction hlength : file.length using Nat.strongRecOn generalizing buf file itemsRead with
  | _ length ih =>
      subst hlength
      have hfour : 4 ≤ ((window buf 0).tail ++ file).length := by simp [window]
      have hcons : window buf 0 ++ file = buf 0 :: ((window buf 0).tail ++ file) := rfl
      rw [hcons]
      rcases hfound : locate 0 (buf 0 :: ((window buf 0).tail ++ file)) with ⟨skipped, _ | found⟩
      · rw [readloop_eq (readIteration_none (findMagic_none hfound)), scan_eq hfew (scanStep_none hfour hfound)]
        rfl
      · obtain ⟨buf', file', hfind, hbytes, hsame⟩ := findMagic_some hfound
        obtain ⟨hlen, hdrop⟩ := lengthOf_append (window buf' skipped).tail file' rfl
        rw [← hbytes] at hlen hdrop
        have hitem := reading_readItem buf'
          (fun buf₁ file₁ n hlt hn => ih _ (Nat.lt_of_lt_of_le hlt (findMagic_le hfind)) _ _ hn rfl) hfew hlen hdrop
        rw [hsame 0 (by omega)] at hitem
        rcases hread : readItem buf' (lengthAt buf' skipped) file' itemsRead with ⟨calls, next⟩
        rcases hscan : scanItem (buf 0) found with ⟨calls', rest⟩
        have hlengthAt : BitVec.ofNat 32 (BigEndian.value (window buf' skipped).tail) = lengthAt buf' skipped := rfl
        rw [hlengthAt, hread, hscan] at hitem
        rw [readloop_eq (readIteration_some hfind hread), scan_eq hfew (scanStep_some hfour hfound hscan), after_append,
          after_append, hitem]

/-- The reading of a whole file. -/
theorem readCacheContents_eq_scan (file : List UInt8) : readCacheContents file = scan 0 file :=
  reading_nextHeader_zero (fun buf' file' _ => readloop_eq_scan buf' file' (Nat.zero_le _)) (Nat.zero_le _)

end AllInSafe.Log
