import AllInSafe.Log.Scan

/-!
# Damage inside a cache

The bytes that stand in the place of one record, read up to their end.
-/

namespace AllInSafe.Log
open AllInSafe.Library

/-! ## The items of a reading -/

def LogCall.item : LogCall → Option LogItem
  | .cached li => some li
  | _ => none

/-- The items that the reader has put into the log buffer. -/
def Reading.cachedItems (r : Reading) : List LogItem := r.calls.filterMap LogCall.item

/-! ## A content that may be cut -/

/-- What the reader finds in a part of a file; a content is cut before its last `n` bytes. -/
inductive PartContent
  | complete (buf2 part : List UInt8)
  | aborted (call : LogCall) (part : List UInt8)
  | overrun
  | cut (n : Nat) (buf2 : List UInt8)
  | cutEscape
  deriving DecidableEq, Repr

def partContent : Nat → List UInt8 → List UInt8 → PartContent
  | 0, buf2, part => .complete buf2 part
  | n + 1, buf2, [] => .cut (n + 1) buf2
  | n + 1, buf2, b :: part =>
      let store := fun (b : UInt8) (part : List UInt8) =>
        if buf2.length < bufLength then partContent n (buf2 ++ [b]) part else .overrun
      if b = MAGIC_BYTE then .aborted (.unexpectedMagic buf2.length) part
      else if b = MAGIC_BYTE + 1 then
        match part with
        | [] => .cutEscape
        | b :: part =>
            if b = 0 then store MAGIC_BYTE part
            else if b = 1 then store (MAGIC_BYTE + 1) part
            else .aborted (.badEscape b) part
      else store b part

/-- The content that these bytes announce, as it stands in the part behind them. -/
def contentIn (length part : List UInt8) : PartContent := partContent (lengthOf length).toInt.toNat [] part

/-- At the end of the file the content puts no item into the log buffer. The bytes that are missing are read
as 0xFF. -/
def Harmless (length part : List UInt8) : Prop :=
  match contentIn length part with
  | .complete buf2 _ => ∃ e, restoreLogItem buf2 (lengthOf length) = .error e
  | .aborted _ _ => False
  | .overrun | .cutEscape => True
  | .cut n buf2 => buf2.length + n ≤ bufLength →
      ∀ li, restoreLogItem (buf2 ++ List.replicate n 0xFF) (lengthOf length) ≠ .ok (.cached li)

/-! ## Contained damage -/

/-- After `itemsRead` items the reader goes through `part` and is in step again behind it, or the file ends there
and there are no `more` records; `found` are the contents that it takes for items. -/
inductive Contained (more : Prop) : Nat → List UInt8 → List (List UInt8) → Prop
  | garbage {itemsRead : Nat} {part : List UInt8} (hmore : more) (hmagic : MAGIC_BYTE ∉ part)
      (hbound : part.length + 10 ≤ bufLength) : Contained more itemsRead part []
  | cut {itemsRead : Nat} {length part : List UInt8} (hmore : more) (hlength : length.length = 4)
      (hcontent : contentIn length part = .cutEscape ∨ ∃ n buf2, contentIn length part = .cut n buf2) :
      Contained more itemsRead (MAGIC_BYTE :: (length ++ part)) []
  | aborted {itemsRead : Nat} {garbage length part rest : List UInt8} {found : List (List UInt8)} {call : LogCall}
      (hmagic : MAGIC_BYTE ∉ garbage) (hbound : garbage.length + 10 ≤ bufLength) (hlength : length.length = 4)
      (hcontent : contentIn length part = .aborted call rest)
      (hrest : Contained more itemsRead (garbage.headD MAGIC_BYTE :: rest) found) :
      Contained more itemsRead (garbage ++ MAGIC_BYTE :: (length ++ part)) found
  | item {itemsRead : Nat} {garbage length part buf2 rest : List UInt8} {found : List (List UInt8)} {call : LogCall}
      (hfew : itemsRead ≤ 2 * MAXLOGENTRIES)
      (hmagic : MAGIC_BYTE ∉ garbage) (hbound : garbage.length + 10 ≤ bufLength) (hlength : length.length = 4)
      (hcontent : contentIn length part = .complete buf2 rest)
      (hcall : restoreLogItem buf2 (lengthOf length) = .ok call)
      (hrest : Contained more (itemsRead + 1) rest found) :
      Contained more itemsRead (garbage ++ MAGIC_BYTE :: (length ++ part)) (buf2 :: found)
  | unread {itemsRead : Nat} {part : List UInt8} (hlast : ¬ more) (hmany : 2 * MAXLOGENTRIES < itemsRead) :
      Contained more itemsRead part []
  | noHeader {itemsRead : Nat} {part : List UInt8} (hlast : ¬ more)
      (hpart : part.length < 5 ∨ (locate 0 part).2 = none) : Contained more itemsRead part []
  | ended {itemsRead : Nat} {garbage length part : List UInt8} (hlast : ¬ more)
      (hmagic : MAGIC_BYTE ∉ garbage) (hbound : garbage.length + 10 ≤ bufLength) (hlength : length.length = 4)
      (hcontent : Harmless length part) :
      Contained more itemsRead (garbage ++ MAGIC_BYTE :: (length ++ part)) []

/-- The item with this content stands in `part`, its length in front of it. -/
def Holds (part buf2 : List UInt8) : Prop :=
  ∃ length content, (length ++ content) <:+: part ∧ length.length = 4 ∧
    contentIn length content = .complete buf2 []

/-- The items with these contents; the reader refuses one that says nothing. -/
def itemsOf (found : List (List UInt8)) : List LogItem :=
  found.filterMap fun buf2 => match LogItem.ofBytes buf2 buf2.length with
    | .ok li => if li.verify then some li else none
    | .error _ => none

end AllInSafe.Log
