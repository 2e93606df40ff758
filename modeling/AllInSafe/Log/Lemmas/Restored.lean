import AllInSafe.Log.Lemmas.Decode

/-!
# An item that has come back

A string is cut once: what has come back from the bytes comes back unchanged.
-/

namespace AllInSafe.Log
open AllInSafe.Library Buffer

theorem encode_elipse : elipse = Utf8.encode ('.' :: "..[too long]".toList) := rfl

/-- The bytes of a string that has been read are as many, and decode to the same string. -/
theorem shortened_decode (p : Nat) (str : Str) :
    (shortened p (Utf8.decode (shortened p str))).length = (shortened p str).length ∧
      Utf8.decode (shortened p (Utf8.decode (shortened p str))) = Utf8.decode (shortened p str) := by
  by_cases hlong : limit p < (Utf8.encode str).length
  · have hcut : shortened p str = (Utf8.encode str).take (limit p) ++ elipse := by rw [shortened, if_pos hlong]
    have hle : limit p ≤ (Utf8.encode str).length := Nat.le_of_lt hlong
    have hdot : '.'.toNat ≤ 0x7F := by decide
    have hagain := Utf8.le_length_encode_decode_take hle hdot "..[too long]".toList
    have hsame := Utf8.decode_take_encode_decode hle hdot "..[too long]".toList
    rw [← encode_elipse] at hagain hsame
    rw [length_elipse] at hagain
    rw [hcut, shortened, if_pos (by omega)]
    refine ⟨?_, hsame⟩
    rw [List.length_append, List.length_append, List.length_take_of_le (by omega), List.length_take_of_le hle]
  · have hwhole : shortened p str = Utf8.encode str := by rw [shortened, if_neg hlong]
    rw [hwhole, Utf8.decode_encode, hwhole]
    exact ⟨rfl, Utf8.decode_encode str⟩

theorem wireArg_readArg (p : Nat) (a : Arg) :
    (wireArg p (readArg p a)).length = (wireArg p a).length ∧ readArg p (readArg p a) = readArg p a := by
  have htext : ∀ str, (wireArg p (.string (Utf8.decode (shortened (p + 2) str)))).length =
        (wireArg p (.string str)).length ∧
      readArg p (.string (Utf8.decode (shortened (p + 2) str))) = .string (Utf8.decode (shortened (p + 2) str)) :=
    fun str => by
      obtain ⟨hlength, hdecode⟩ := shortened_decode (p + 2) str
      rw [wireArg, wireArg, length_putText, length_putText, hlength, readArg, hdecode]
      exact ⟨rfl, rfl⟩
  cases a with
  | string str | other str => exact htext str
  | int | float | double | long | null => exact ⟨rfl, rfl⟩

theorem readArgs_readArgs (p : Nat) (args : List Arg) : readArgs p (readArgs p args) = readArgs p args := by
  induction args generalizing p with
  | nil => rfl
  | cons a args ih =>
      obtain ⟨hlength, hread⟩ := wireArg_readArg p a
      rw [readArgs, readArgs, hlength, hread, ih]

theorem decode_shortened_ne_nil (p : Nat) {str : Str} (h : str ≠ []) : Utf8.decode (shortened p str) ≠ [] := by
  intro hnil
  have hlength := (shortened_decode p str).1
  rw [hnil, shortened, if_neg (by simp), Utf8.encode_nil] at hlength
  exact shortened_ne_nil h (List.length_eq_zero_iff.mp hlength.symm)

theorem wireMessage_readMessage (message : Option Str) :
    (wireMessage (readMessage message)).length = (wireMessage message).length ∧
      readMessage (readMessage message) = readMessage message := by
  match message with
  | none | some [] => exact ⟨rfl, rfl⟩
  | some (c :: cs) =>
      obtain ⟨hlength, hdecode⟩ := shortened_decode 21 (c :: cs)
      have hread : readMessage (some (c :: cs)) = some (Utf8.decode (shortened 21 (c :: cs))) := rfl
      have hwire : wireMessage (some (c :: cs)) = wireString 21 (c :: cs) := rfl
      obtain ⟨d, ds, hcons⟩ := List.exists_cons_of_ne_nil (decode_shortened_ne_nil 21 (List.cons_ne_nil c cs))
      have hread' : readMessage (some (d :: ds)) = some (Utf8.decode (shortened 21 (d :: ds))) := rfl
      have hwire' : wireMessage (some (d :: ds)) = wireString 21 (d :: ds) := rfl
      rw [hcons] at hlength hdecode hread
      rw [hread, hread', hdecode, hwire, hwire', length_wireString, length_wireString, hlength]
      exact ⟨rfl, rfl⟩

theorem LogItem.restored_restored (li : LogItem) : li.restored.restored = li.restored := by
  obtain ⟨hlength, hmessage⟩ := wireMessage_readMessage li.mMessage
  have hstart : li.restored.argsStart = li.argsStart := by
    rw [argsStart, argsStart, restored, hlength]
  have hargs : li.restored.args = readArgs li.argsStart li.args := by
    rw [args, restored]
    by_cases hnil : li.args = []
    · rw [if_pos hnil, hnil]
      rfl
    · rw [if_neg hnil]
      rfl
  have hnil : readArgs li.argsStart li.args = [] ↔ li.args = [] := by
    cases li.args with
    | nil => exact Iff.rfl
    | cons a as => exact iff_of_false (List.cons_ne_nil _ _) (List.cons_ne_nil _ _)
  rw [restored, hargs, hstart, readArgs_readArgs]
  simp only [hnil]
  rw [restored, hmessage]

end AllInSafe.Log
