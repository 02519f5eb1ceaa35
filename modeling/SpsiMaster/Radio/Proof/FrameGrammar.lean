import SpsiMaster.Radio.Decoder

/-!
# Which packets are frames

The receive path tests the second and the last but one byte of a packet and lets `sscanf` read
what is between, without looking at how far it came. A field it did not reach keeps what the stack
held, and text behind the two ids is not looked at.

`frames_iff`: a callback takes exactly the frames `S{t,f,c,d}S` with the right ids, apart from
frames with a number out of range and from three kinds of other texts.
-/

namespace Spsi

open CInt Scanf World

/-! ## Frames -/

/-- The received text: the bytes from 1 on, up to the one before the NUL of the sender. -/
def RxBuffer.text (b : RxBuffer) (rxLen : Nat) : List UInt8 :=
  (List.range (rxLen - 2)).map fun (i : Nat) => b.read ((i : Int) + 1)

/-- `S{t,f,c,d}S` with `Self_ID` and `Target_ID` for `t` and `f`. -/
def IsFrame (w : World) (s : List UInt8) (c d : Int) : Prop :=
  ∃ t f cs ds, s = 83 :: 123 :: (t ++ 44 :: (f ++ 44 :: (cs ++ 44 :: (ds ++ [125, 83])))) ∧
    numeral t = some (w.selfId.toNat : Int) ∧ numeral f = some (w.targetId.toNat : Int) ∧
    numeral cs = some c ∧ numeral ds = some d

/-- A packet is accepted, with its own command and data, if its text is a frame; any other changes
nothing. -/
def AcceptsFrames (r : Radio) (stack : Message) (w : World) (rssi : Int) (b : RxBuffer)
    (rxLen : Nat) : Prop :=
  (∀ c d, IsFrame w (b.text rxLen) c d →
    rxCallback r stack w rssi b rxLen = accept r w rssi c d) ∧
  ((¬ ∃ c d, IsFrame w (b.text rxLen) c d) → rxCallback r stack w rssi b rxLen = w)

/-- The `long` that `sscanf` stores for `i` compares equal to `id`. -/
def ReadAs (i : Int) (id : UInt32) : Prop := longEqU32 (clampLong i) id = true

/-- The kinds of texts that name the right ids: both are in the text, whatever comes behind them;
one is, and the stack holds the other; the stack holds both. -/
inductive Names (w : World) (stack : Message) (s : List UInt8) : Prop
  | both {t f : Int} {s' rest : List UInt8} (ht : HasField [83, 123] s t s')
      (hf : HasField [44] s' f rest) (hself : ReadAs t w.selfId) (htarget : ReadAs f w.targetId)
  | first {t : Int} {s' : List UInt8} (ht : HasField [83, 123] s t s')
      (hf : ¬ ∃ f rest, HasField [44] s' f rest) (hself : ReadAs t w.selfId)
      (htarget : longEqU32 stack.fromId w.targetId = true)
  | none (ht : ¬ ∃ t s', HasField [83, 123] s t s')
      (hself : longEqU32 stack.targetId w.selfId = true)
      (htarget : longEqU32 stack.fromId w.targetId = true)

/-! ## What the scan gives -/

theorem frameFormat_eq : frameFormat = fieldOf [83, 123] (fieldOf [44] (fieldOf [44] (fieldOf [44]
    [.lit 125, .lit 83]))) := rfl

/-- The ids that `sscanf` leaves are right exactly for the three kinds. -/
theorem names_iff (w : World) (stack : Message) (s : List UInt8) :
    longEqU32 (stack.sscanf s).targetId w.selfId = true ∧
      longEqU32 (stack.sscanf s).fromId w.targetId = true ↔ Names w stack s := by
  constructor
  · rintro ⟨hself, htarget⟩
    simp only [Message.sscanf, frameFormat_eq] at hself htarget
    by_cases ht : ∃ t s', HasField [83, 123] s t s'
    · obtain ⟨t, s', ht⟩ := ht
      rw [scan_field ht] at hself htarget
      by_cases hf : ∃ f rest, HasField [44] s' f rest
      · obtain ⟨f, rest, hf⟩ := hf
        rw [scan_field hf] at htarget
        exact .both ht hf hself htarget
      · rw [scan_no_field hf] at htarget
        exact .first ht hf hself htarget
    · rw [scan_no_field ht] at hself htarget
      exact .none ht hself htarget
  · intro h
    simp only [Message.sscanf, frameFormat_eq]
    cases h with
    | both ht hf hself htarget =>
      rw [scan_field ht, scan_field hf]
      exact ⟨hself, htarget⟩
    | first ht hf hself htarget =>
      rw [scan_field ht, scan_no_field hf]
      exact ⟨hself, htarget⟩
    | none ht hself htarget =>
      rw [scan_no_field ht]
      exact ⟨hself, htarget⟩

/-- A frame is read to its end, up to the range of `long`. -/
theorem scan_frame {t f cs ds : List UInt8} {ti fi c d : Int} (ht : numeral t = some ti)
    (hf : numeral f = some fi) (hc : numeral cs = some c) (hd : numeral ds = some d)
    (more : List UInt8) :
    scan frameFormat
        (83 :: 123 :: (t ++ 44 :: (f ++ 44 :: (cs ++ 44 :: (ds ++ [125, 83])))) ++ more) =
      [clampLong ti, clampLong fi, clampLong c, clampLong d] := by
  have h1 : HasField [83, 123]
      (83 :: 123 :: (t ++ 44 :: (f ++ 44 :: (cs ++ 44 :: (ds ++ 125 :: 83 :: more))))) ti _ :=
    ⟨_, rfl, reads_numeral ht rfl _⟩
  have h2 : HasField [44] (44 :: (f ++ 44 :: (cs ++ 44 :: (ds ++ 125 :: 83 :: more)))) fi _ :=
    ⟨_, rfl, reads_numeral hf rfl _⟩
  have h3 : HasField [44] (44 :: (cs ++ 44 :: (ds ++ 125 :: 83 :: more))) c _ :=
    ⟨_, rfl, reads_numeral hc rfl _⟩
  have h4 : HasField [44] (44 :: (ds ++ 125 :: 83 :: more)) d _ :=
    ⟨_, rfl, reads_numeral hd rfl _⟩
  simp only [List.cons_append, List.append_assoc, List.nil_append, frameFormat_eq]
  rw [scan_field h1, scan_field h2, scan_field h3, scan_field h4]
  rfl

/-! ## The text and the C string -/

/-- Without a NUL in them, the first bytes of a buffer are in its C string. -/
theorem takeWhile_of_nonzero (l : List UInt8) (n : Nat)
    (h : ∀ c ∈ (List.range n).map fun i => l.getD i 0, c ≠ 0) :
    ∃ more, l.takeWhile (fun c => c != 0) = ((List.range n).map fun i => l.getD i 0) ++ more := by
  induction n generalizing l with
  | zero => exact ⟨_, rfl⟩
  | succ n ih =>
    rw [List.range_succ_eq_map, List.map_cons, List.map_map] at h ⊢
    cases l with
    | nil => exact absurd rfl (h 0 List.mem_cons_self)
    | cons x l =>
      have hx : x ≠ 0 := h x List.mem_cons_self
      obtain ⟨more, hm⟩ := ih l fun c hc => h c (List.mem_cons_of_mem _ hc)
      refine ⟨more, ?_⟩
      rw [List.takeWhile_cons_of_pos (by simpa using hx), hm]
      rfl

/-- A text without NUL is what the C string at `&rx_buffer[1]` starts with. -/
theorem RxBuffer.string_of_text (b : RxBuffer) (rxLen : Nat) (h : ∀ c ∈ b.text rxLen, c ≠ 0) :
    ∃ more, b.string = b.text rxLen ++ more := by
  have htext : b.text rxLen = (List.range (rxLen - 2)).map fun i => (b.bytes.drop 1).getD i 0 := by
    unfold RxBuffer.text
    refine List.map_congr_left fun i _ => ?_
    have hi : ¬ ((i : Int) + 1 < 0) := by omega
    rw [RxBuffer.read, if_neg hi]
    cases b.bytes with
    | nil => rfl
    | cons x l => rfl
  rw [htext] at h ⊢
  exact takeWhile_of_nonzero _ _ h

theorem IsFrame.nonzero {w : World} {s : List UInt8} {c d : Int} (h : IsFrame w s c d) :
    ∀ x ∈ s, x ≠ 0 := by
  obtain ⟨t, f, cs, ds, rfl, ht, hf, hc, hd⟩ := h
  have h1 := numeral_ne_zero ht
  have h2 := numeral_ne_zero hf
  have h3 := numeral_ne_zero hc
  have h4 := numeral_ne_zero hd
  intro x hx
  simp only [List.mem_cons, List.mem_append, List.not_mem_nil, or_false] at hx
  rcases hx with rfl | rfl | hx | rfl | hx | rfl | hx | rfl | hx | rfl | rfl
  · decide
  · decide
  · exact h1 x hx
  · decide
  · exact h2 x hx
  · decide
  · exact h3 x hx
  · decide
  · exact h4 x hx
  · decide
  · decide

/-- Both ends of a frame are tested by the callback and the function it calls. -/
theorem IsFrame.ends {w : World} {b : RxBuffer} {rxLen : Nat} {c d : Int}
    (h : IsFrame w (b.text rxLen) c d) :
    b.read 1 = 83 ∧ b.read ((rxLen : Int) - 2) = 83 := by
  obtain ⟨t, f, cs, ds, hs, -⟩ := h
  have hread : ∀ i, i < rxLen - 2 → (b.text rxLen)[i]? = some (b.read (i + 1)) := by
    intro i hi
    simp [RxBuffer.text, hi]
  have hlen : (b.text rxLen).length = rxLen - 2 := by simp [RxBuffer.text]
  -- the frame as its first byte and the rest, and as its last byte and what is before it
  obtain ⟨front, hfront⟩ : ∃ front, b.text rxLen = front ++ [83] := by
    refine ⟨83 :: 123 :: (t ++ 44 :: (f ++ 44 :: (cs ++ 44 :: (ds ++ [125])))), ?_⟩
    rw [hs]
    simp
  have hpos : 0 < rxLen - 2 := by
    rw [← hlen, hs]
    exact Nat.succ_pos _
  have hlast : front.length = rxLen - 2 - 1 := by
    rw [← hlen, hfront, List.length_append, List.length_singleton]
    omega
  refine ⟨?_, ?_⟩
  · have h0 := hread 0 hpos
    rw [hs] at h0
    exact (Option.some.inj h0).symm
  · have h1 := hread (rxLen - 2 - 1) (by omega)
    rw [hfront, ← hlast, List.getElem?_concat_length] at h1
    rw [Option.some.inj h1, hlast]
    congr 1
    omega

/-! ## What the callbacks decide -/

/-- The newest accepted frame. -/
def newestAccepted (h : List Ev) : Option (Radio × Int × Int) := h.findSome? fun
  | .accepted r c d => some (r, c, d)
  | _ => none

theorem accept_newest (r : Radio) (w : World) (rssi c d : Int) :
    newestAccepted (accept r w rssi c d).hist = some (r, c, d) := by
  obtain ⟨-, -, -, h, hx, he⟩ := accept_spec r w rssi c d
  have hskip : newestAccepted h = some (r, c, d) := Hist.Extends.findSome? hx fun e he => by
    cases e <;> first | rfl | cases he
  rw [he]
  exact hskip

theorem accept_ne (r : Radio) (w : World) (rssi c d : Int) : accept r w rssi c d ≠ w := by
  obtain ⟨-, -, -, h, ⟨es, hx, -⟩, he⟩ := accept_spec r w rssi c d
  intro heq
  have hlen := congrArg (fun v : World => v.hist.length) heq
  simp only [he, hx, List.length_cons, List.length_append] at hlen
  omega

section
variable {r : Radio} {stack : Message} {w : World} {rssi : Int} {b : RxBuffer} {rxLen : Nat}

theorem closing_index (h0 : 0 < rxLen) (h1 : rxLen < 256) :
    ((u8OfInt ((rxLen : Int) - 1) : Nat) : Int) - 1 = (rxLen : Int) - 2 := by
  unfold u8OfInt
  omega

theorem rxCallback_of_names (h0 : 0 < rxLen) (h1 : rxLen < 256) (hopen : b.read 1 = 83)
    (hclose : b.read ((rxLen : Int) - 2) = 83) (hn : Names w stack b.string) :
    rxCallback r stack w rssi b rxLen =
      accept r w rssi (stack.sscanf b.string).command (stack.sscanf b.string).data := by
  rw [rxCallback_eq, if_pos hopen]
  simp only [solve, closing_index h0 h1]
  rw [if_pos hclose, if_pos ((names_iff w stack _).2 hn)]

theorem rxCallback_of_not (h0 : 0 < rxLen) (h1 : rxLen < 256)
    (hn : ¬ (b.read 1 = 83 ∧ b.read ((rxLen : Int) - 2) = 83 ∧ Names w stack b.string)) :
    rxCallback r stack w rssi b rxLen = w := by
  rw [rxCallback_eq]
  split
  · next hopen =>
    simp only [solve, closing_index h0 h1]
    split
    · next hclose =>
      exact if_neg fun hids => hn ⟨hopen, hclose, (names_iff w stack _).1 hids⟩
    · rfl
  · rfl

/-- What `sscanf` leaves for a frame, whatever the stack held. -/
theorem IsFrame.sscanf {c d : Int} (h : IsFrame w (b.text rxLen) c d) :
    stack.sscanf b.string =
      ⟨clampLong w.selfId.toNat, clampLong w.targetId.toNat, clampLong c, clampLong d⟩ := by
  obtain ⟨more, hmore⟩ := b.string_of_text rxLen h.nonzero
  obtain ⟨t, f, cs, ds, hs, ht, hf, hc, hd⟩ := h
  rw [Message.sscanf, hmore, hs, scan_frame ht hf hc hd]
  rfl

theorem readAs_self {id : UInt32} : longEqU32 (clampLong id.toNat) id = true ↔
    InLong (id.toNat : Int) := by
  have := id.toNat_lt
  unfold InLong clampLong
  simp only [longEqU32, beq_iff_eq]
  omega

/-- A frame names the right ids if they are in range. -/
theorem IsFrame.names {c d : Int} (h : IsFrame w (b.text rxLen) c d) :
    Names w stack b.string ↔ InLong (w.selfId.toNat : Int) ∧ InLong (w.targetId.toNat : Int) := by
  rw [← names_iff, h.sscanf]
  exact and_congr readAs_self readAs_self

end

/-- The inputs on which a callback does what it should: the numbers of a frame are in range, and a
text that is no frame does not begin and end with `S` and name the right ids. -/
def Unmistakable (stack : Message) (w : World) (b : RxBuffer) (rxLen : Nat) : Prop :=
  (∀ c d, IsFrame w (b.text rxLen) c d → InLong (w.selfId.toNat : Int) ∧
    InLong (w.targetId.toNat : Int) ∧ InLong c ∧ InLong d) ∧
  ((¬ ∃ c d, IsFrame w (b.text rxLen) c d) →
    ¬ (b.read 1 = 83 ∧ b.read ((rxLen : Int) - 2) = 83 ∧ Names w stack b.string))

/-- **Frames are accepted by the grammar** on the inputs that are not mistakable, and on no
others. -/
theorem frames_iff {r : Radio} {stack : Message} {w : World} {rssi : Int} {b : RxBuffer}
    {rxLen : Nat} (h0 : 0 < rxLen) (h1 : rxLen < 256) :
    AcceptsFrames r stack w rssi b rxLen ↔ Unmistakable stack w b rxLen := by
  constructor
  · rintro ⟨hframe, hother⟩
    refine ⟨fun c d hf => ?_, fun hno hn => ?_⟩
    · have hacc := hframe c d hf
      have hnames : Names w stack b.string := Classical.byContradiction fun hn =>
        accept_ne r w rssi c d (hacc.symm.trans (rxCallback_of_not h0 h1 fun h => hn h.2.2))
      obtain ⟨hself, htarget⟩ := hf.names.1 hnames
      -- the command and the data that were acted on are the ones of the frame
      have hsame : accept r w rssi c d = accept r w rssi (clampLong c) (clampLong d) := by
        rw [← hacc, rxCallback_of_names h0 h1 hf.ends.1 hf.ends.2 hnames, hf.sscanf]
      have hnew := congrArg (fun v : World => newestAccepted v.hist) hsame
      simp only [accept_newest, Option.some.injEq, Prod.mk.injEq, true_and] at hnew
      exact ⟨hself, htarget, clampLong_eq_self.1 hnew.1.symm, clampLong_eq_self.1 hnew.2.symm⟩
    · have hacc := @rxCallback_of_names r stack w rssi b rxLen h0 h1 hn.1 hn.2.1 hn.2.2
      exact accept_ne r w rssi _ _ (hacc.symm.trans (hother hno))
  · rintro ⟨hframe, hother⟩
    refine ⟨fun c d hf => ?_, fun hno => rxCallback_of_not h0 h1 (hother hno)⟩
    obtain ⟨hself, htarget, hc, hd⟩ := hframe c d hf
    rw [rxCallback_of_names h0 h1 hf.ends.1 hf.ends.2 (hf.names.2 ⟨hself, htarget⟩), hf.sscanf,
      clampLong_of_inLong hc, clampLong_of_inLong hd]

/-- A frame of the peer. -/
theorem frames_peer :
    AcceptsFrames .rf433 ⟨0, 0, 0, 0⟩ World.init (-70) (peerFrame 0 1) 29 := by
  refine (frames_iff (by decide) (by decide)).2 ⟨fun c d hf => ?_, fun hno => absurd ?_ hno⟩
  · have hs := @IsFrame.sscanf ⟨0, 0, 0, 0⟩ _ _ _ _ _ hf
    have hval : Message.sscanf ⟨0, 0, 0, 0⟩ (peerFrame 0 1).string =
        ⟨50000000, 60000000, 0, 1⟩ := by decide
    rw [hval, Message.mk.injEq] at hs
    obtain ⟨-, -, hc, hd⟩ := hs
    refine ⟨by decide, by decide, ?_, ?_⟩
    · unfold clampLong at hc
      unfold InLong
      omega
    · unfold clampLong at hd
      unfold InLong
      omega
  · exact ⟨0, 1, [53, 48, 48, 48, 48, 48, 48, 48], [54, 48, 48, 48, 48, 48, 48, 48], [48, 48],
      [48, 49], by decide, by decide, by decide, by decide, by decide⟩

/-- The text `SS`, with the ids of an earlier frame on the stack, is accepted. -/
theorem frames_mistaken :
    ¬ AcceptsFrames .rf433 ⟨50000000, 60000000, 0, 1⟩ World.init (-70) ⟨0, [4, 83, 83, 0]⟩ 4 := by
  rintro ⟨-, hother⟩
  have hno : ¬ ∃ c d, IsFrame World.init (RxBuffer.text ⟨0, [4, 83, 83, 0]⟩ 4) c d := by
    rintro ⟨c, d, t, f, cs, ds, hs, -⟩
    have hsecond := congrArg (fun s : List UInt8 => s[1]?) hs
    exact absurd hsecond (by simp [RxBuffer.text, RxBuffer.read])
  have hlen := congrArg (fun w : World => w.hist.length) (hother hno)
  exact absurd hlen (by decide)

end Spsi
