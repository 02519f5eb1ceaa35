import SpsiMaster.Lib.Newest
import SpsiMaster.Log.File
import SpsiMaster.Radio.Transmit

/-!
# The sizes of the texts

A record of `File_Output` is printed to 64 bytes from `malloc`, a frame of `rf_433_send` to 50, of
which 28 are passed on. Both texts fit whatever the numbers are, and a frame fills the 28 bytes
(`texts_fit`): the widths of the conversions add up to 54 and 36 bytes at most.
-/

namespace Spsi

open CInt Printf Newest

/-- An `int`. -/
abbrev CIntVal := { i : Int // InLong i }

/-- The arguments of `File_Output` by their types. -/
def FileArgs.ofTypes (select valve psi shake sendNum : UInt8) (rssi : CIntVal)
    (first button : UInt8) : FileArgs :=
  ⟨select.toNat, valve.toNat, psi.toNat, shake.toNat, sendNum.toNat, rssi, first.toNat,
    button.toNat⟩

/-! ## Numbers -/

theorem length_uint8_le (b : UInt8) : (int (b.toNat : Int)).length ≤ 3 :=
  length_int_natCast_le (by decide) (Nat.lt_trans b.toNat_lt (by decide))

theorem length_cint_le (i : CIntVal) : (int i).length ≤ 11 := by
  obtain ⟨i, hlo, hhi⟩ := i
  have habs : i.natAbs < 10 ^ 10 := by omega
  exact length_int_le_succ (by decide) habs

/-! ## Records -/

/-- A number, the columns with a blank each, the end of the line. -/
theorem length_recordText (n : UInt32) (a : FileArgs) : (recordText n a).length =
    (int (i32 n)).length + ((a.columns.map fun i => (int i).length + 1).sum + 1) := by
  rw [recordText, List.length_append, List.length_append, List.length_flatMap]
  rfl

theorem length_recordText_le (n : UInt32) (select valve psi shake sendNum : UInt8) (rssi : CIntVal)
    (first button : UInt8) :
    (recordText n (.ofTypes select valve psi shake sendNum rssi first button)).length + 1 ≤ 54 := by
  have hfreq : ∀ n : Nat, (int (if 0 < n then 433 else 4068)).length ≤ 4 := by
    intro n
    split <;> decide
  have hn := length_int_le n
  have hselect := hfreq select.toNat
  have hvalve := length_uint8_le valve
  have hpsi := length_uint8_le psi
  have hshake := length_uint8_le shake
  have hsendNum := length_uint8_le sendNum
  have hrssi := length_cint_le rssi
  have hfirst := length_uint8_le first
  have hbutton := length_uint8_le button
  have hcolumns : (FileArgs.ofTypes select valve psi shake sendNum rssi first button).columns =
      ([if 0 < select.toNat then 433 else 4068, valve.toNat, psi.toNat, shake.toNat,
        sendNum.toNat, rssi, first.toNat, button.toNat] : List Int) := rfl
  simp only [length_recordText, hcolumns, List.map_cons, List.map_nil, List.sum_cons, List.sum_nil]
  omega

/-! ## Frames -/

/-- The least and the greatest size of a frame with its NUL. -/
theorem length_frameText (tag : UInt8) (selfId : UInt32) (m : Slot) :
    28 ≤ (frameText tag selfId m).length + 1 ∧ (frameText tag selfId m).length + 1 ≤ 36 := by
  have htarget := length_int_le m.targetId
  have hself := length_int_le selfId
  have hcommand := length_uint8_le m.command
  have hdata := length_uint8_le m.data
  simp only [frameText, List.length_append, List.length_cons, List.length_nil,
    length_zeroPadded_eq]
  omega

/-! ## `TXBuff` -/

/-- What `transmit_packet_task` writes to `TXBuff`, by index: the length, and `memcpy` behind it. -/
def txStores (buf : List UInt8) (length : UInt8) : List (Nat × UInt8) :=
  (0, length + 1) :: (List.range length.toNat).map fun i => (i + 1, buf.getD i 0)

theorem lastWrite_copy (buf : List UInt8) (n k : Nat) :
    lastWrite ((List.range n).map fun i => (i + 1, buf.getD i 0)) k =
      if 0 < k ∧ k ≤ n then some (buf.getD (k - 1) 0) else none := by
  induction n with
  | zero => rw [if_neg (by omega)]; rfl
  | succ n ih =>
    rw [List.range_succ, List.map_append, List.map_singleton, lastWrite_concat, ih]
    by_cases hk : n + 1 = k
    · subst hk
      rw [if_pos rfl, if_pos (by omega)]
      rfl
    · rw [if_neg hk]
      by_cases hle : 0 < k ∧ k ≤ n
      · rw [if_pos hle, if_pos (by omega)]
      · rw [if_neg hle, if_neg (by omega)]

/-- In the array `TXBuff` these are the writes of `transmitPacketTask`. -/
theorem transmitPacketTask_txBuff (dev : Transmitter) (buf : List UInt8) (length : UInt8)
    {i : Nat} (hi : i < 64) : (dev.transmitPacketTask buf length).txBuff[i] =
      writes (fun i => dev.txBuff.toList.getD i 0) (txStores buf length) i := by
  have hold : dev.txBuff.toList.getD i 0 = dev.txBuff[i] := by simp [hi]
  have hnew : (dev.transmitPacketTask buf length).txBuff[i] =
      if i = 0 then length + 1 else if i ≤ length.toNat then buf.getD (i - 1) 0
      else dev.txBuff[i] := by
    simp only [Transmitter.transmitPacketTask, Transmitter.read, Vector.getElem_ofFn]
    rfl
  rw [writes_apply, hold, hnew, lastWrite, txStores, newest_cons, ← lastWrite, lastWrite_copy]
  by_cases h0 : i = 0
  · subst h0
    rfl
  · rw [if_neg h0, if_neg (Ne.symm h0), Option.or_none]
    by_cases hle : i ≤ length.toNat
    · rw [if_pos hle, if_pos ⟨by omega, hle⟩, Option.getD_some]
    · rw [if_neg hle, if_neg (fun h => hle h.2), Option.getD_none]

/-- Only the bytes that are passed on matter to a send. -/
theorem normalSend_take (dev : Transmitter) (buf : List UInt8) {length : UInt8} {n : Nat}
    (hn : length.toNat = n) : dev.normalSend (buf.take n) length = dev.normalSend buf length := by
  subst hn
  have hbyte : ∀ i : Fin 64, (if i.val = 0 then length + 1
      else if i.val ≤ length.toNat then (buf.take length.toNat).getD (i.val - 1) 0
      else dev.txBuff[i]) =
      if i.val = 0 then length + 1 else if i.val ≤ length.toNat then buf.getD (i.val - 1) 0
      else dev.txBuff[i] := by
    intro i
    split
    · rfl
    · split
      · simp only [List.getD_eq_getElem?_getD]
        rw [List.getElem?_take_of_lt (by omega)]
      · rfl
  simp only [Transmitter.normalSend, Transmitter.transmitPacketTask]
  rw [funext hbyte]

/-- `rf_433_send` passes on the first 28 bytes of its text. -/
theorem send_dev (tag : UInt8) (selfId : UInt32) (m : Slot) (t : RadioTask) :
    (t.send tag selfId m).dev =
      t.dev.normalSend ((frameText tag selfId m ++ [0]).take 28) 28 := by
  have h28 : (28 : UInt8).toNat = 28 := rfl
  rw [RadioTask.send, normalSend_take t.dev _ h28]

/-- **No text outgrows its buffer**: a record fits 64 bytes, a frame 50, the 28 bytes that are
passed on are all of them written by `sprintf`, and `transmit_packet_task` stores them inside
`TXBuff`. -/
theorem texts_fit :
    (∀ n select valve psi shake sendNum rssi first button,
      let text := recordText n (.ofTypes select valve psi shake sendNum rssi first button)
      text.length + 1 ≤ 64 ∧ (sprintf (malloc 64) text).length = 64) ∧
    ∀ tag selfId m,
      let text := frameText tag selfId m
      (text.length + 1 ≤ 50 ∧ (sprintf (malloc 50) text).length = 50) ∧
      ∃ buf : List UInt8, (sprintf (malloc 50) text).take 28 = buf.map some ∧ buf.length = 28 ∧
        (∀ t : RadioTask, (t.send tag selfId m).dev = t.dev.normalSend buf 28) ∧
        (∀ w ∈ txStores buf 28, w.1 < 64) ∧
        ∀ (dev : Transmitter) (i : Nat) (_ : i < 64),
          (dev.transmitPacketTask buf 28).txBuff[i] =
            writes (fun i => dev.txBuff.toList.getD i 0) (txStores buf 28) i := by
  refine ⟨fun n select valve psi shake sendNum rssi first button => ?_, fun tag selfId m => ?_⟩
  · have hle := length_recordText_le n select valve psi shake sendNum rssi first button
    exact ⟨by omega, (length_sprintf_iff 64 _).2 (by omega)⟩
  · obtain ⟨hmin, hmax⟩ := length_frameText tag selfId m
    have hle : (frameText tag selfId m).length + 1 ≤ 50 := by omega
    have hlen : ((frameText tag selfId m ++ [0]).take 28).length = 28 := by
      rw [List.length_take, List.length_append, List.length_singleton]
      omega
    have htake := take_sprintf hmin (malloc 50)
    refine ⟨⟨hle, (length_sprintf_iff 50 _).2 hle⟩, (frameText tag selfId m ++ [0]).take 28,
      htake, hlen, ?_, ?_, ?_⟩
    · exact send_dev tag selfId m
    · intro w hw
      rcases List.mem_cons.1 hw with rfl | hw
      · decide
      · obtain ⟨i, hi, rfl⟩ := List.mem_map.1 hw
        have hlt : i < 28 := List.mem_range.1 hi
        exact Nat.lt_of_le_of_lt (Nat.succ_le_of_lt hlt) (by decide)
    · intro dev i hi
      exact transmitPacketTask_txBuff dev _ 28 hi

end Spsi
