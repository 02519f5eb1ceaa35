import Mathlib.Data.List.GetD
import SpsiMaster.Lib.Newest
import SpsiMaster.Log.Store

/-!
# The stored counters

`applications/flashwork.c` down to its buffers: a counter is printed, stored as text under its key,
copied back into the shared buffer `read_value_temp` and parsed. The key-value store is any one that
gives back what was set (`EnvBlob`); `Store.envBlob` is the one of the rest of the development, and
there the functions do what `flashChange` and `Store.flashGet` say.
-/

namespace Spsi

open CInt Printf Newest

/-- `ef_set_env` and `ef_get_env_blob` on the states `σ` of a store. A get gives the bytes it copies
to a buffer of `bufLen` bytes and the length it returns. -/
structure EnvBlob (σ : Type*) where
  setEnv : σ → Key → List UInt8 → σ
  getEnvBlob : σ → Key → (bufLen : Nat) → List UInt8 × Nat
  getEnvBlob_self : ∀ s k value bufLen,
    getEnvBlob (setEnv s k value) k bufLen = (value.take bufLen, min value.length bufLen)
  getEnvBlob_other : ∀ s k k' value bufLen, k' ≠ k →
    getEnvBlob (setEnv s k value) k' bufLen = getEnvBlob s k' bufLen

/-- The state of a store and `read_value_temp`. -/
structure Flashwork (σ : Type*) where
  env : σ
  readValueTemp : Vector UInt8 64

namespace Flashwork

variable {σ : Type*} (e : EnvBlob σ)

/-- `read_value_temp` after `memset` and a copy to its front. -/
def filled (bytes : List UInt8) : Vector UInt8 64 := Vector.ofFn fun i => bytes.getD i 0

/-- The common code of `Flash_Get_IDNums` and `Flash_Get_Boot`; `read_len` is a `uint8_t`. -/
def get (k : Key) (s : Flashwork σ) : UInt32 × Flashwork σ :=
  let blob := e.getEnvBlob s.env k 64
  let temp := filled blob.1
  let readLen := u8 blob.2
  (if 0 < readLen then u32OfInt (Scanf.atol temp.toList) else 0, { s with readValueTemp := temp })

/-- The common code of `Flash_IDNums_Change` and `Flash_Boot_Change`. -/
def change (k : Key) (value : UInt32) (s : Flashwork σ) : Flashwork σ :=
  { s with env := e.setEnv s.env k (int (i32 value)) }

def flashGetIDNums : Flashwork σ → UInt32 × Flashwork σ := get e .id
def flashIDNumsChange : UInt32 → Flashwork σ → Flashwork σ := change e .id
def flashGetBoot : Flashwork σ → UInt32 × Flashwork σ := get e .bootTimes
def flashBootChange : UInt32 → Flashwork σ → Flashwork σ := change e .bootTimes

end Flashwork

/-- A call of one of the four functions. -/
inductive FlashCall where
  | get (k : Key)
  | change (k : Key) (value : UInt32)
  deriving DecidableEq

/-- The value that a call sets under a key. -/
def FlashCall.sets (k : Key) : FlashCall → Option UInt32
  | change k' value => if k' = k then some value else none
  | get _ => none

namespace Flashwork

variable {σ : Type*} (e : EnvBlob σ)

def call (s : Flashwork σ) : FlashCall → Flashwork σ
  | .get k => (get e k s).2
  | .change k value => change e k value s

/-- A sequence of calls. -/
def calls (s : Flashwork σ) (cs : List FlashCall) : Flashwork σ := cs.foldl (call e) s

/-! ## What is stored is read back -/

theorem toList_filled {bytes : List UInt8} (h : bytes.length ≤ 64) :
    (filled bytes).toList = bytes ++ List.replicate (64 - bytes.length) 0 := by
  refine List.ext_getElem (by simp; omega) fun i hi hi' => ?_
  simp only [filled, Vector.getElem_toList, Vector.getElem_ofFn]
  by_cases hlt : i < bytes.length
  · rw [List.getElem_append_left hlt, List.getD_eq_getElem _ _ hlt]
  · rw [List.getElem_append_right (Nat.not_lt.1 hlt), List.getElem_replicate,
      List.getD_eq_default _ _ (Nat.not_lt.1 hlt)]

/-- A number that is followed by zeros. -/
theorem atol_filled {bytes : List UInt8} {i : Int} (h : Scanf.numeral bytes = some i)
    (hlen : bytes.length ≤ 64) : Scanf.atol (filled bytes).toList = clampLong i := by
  rw [toList_filled hlen]
  refine Scanf.atol_of_reads ⟨[], bytes, rfl, fun c hc => absurd hc List.not_mem_nil, h, ?_⟩
  intro c hc
  have hzero : c = 0 := List.eq_of_mem_replicate (List.mem_of_mem_head? hc)
  rw [hzero]
  rfl

variable {e} {s : Flashwork σ} {k : Key}

/-- **A counter is read back as it was stored**, whatever was stored or in the buffer before. -/
theorem get_change (value : UInt32) : (get e k (change e k value s)).1 = value := by
  have hlen := length_int_le value
  have hpos : 0 < (int (i32 value)).length := by
    refine List.length_pos_of_ne_nil fun hnil => ?_
    have hnum := numeral_int (i32 value)
    rw [hnil] at hnum
    exact absurd hnum (by simp [Scanf.numeral, Scanf.sign])
  have hblob : e.getEnvBlob (change e k value s).env k 64 =
      (int (i32 value), (int (i32 value)).length) := by
    rw [change, e.getEnvBlob_self, List.take_of_length_le (by omega), Nat.min_eq_left (by omega)]
  simp only [get, hblob]
  rw [u8_of_lt (by omega), if_pos hpos, atol_filled (numeral_int _) (by omega),
    clampLong_of_inLong (inLong_i32 value), u32OfInt_i32]

/-- What is read depends on what the store gives for the key alone. -/
theorem get_congr {s s' : Flashwork σ}
    (h : e.getEnvBlob s'.env k 64 = e.getEnvBlob s.env k 64) : (get e k s').1 = (get e k s).1 := by
  simp only [get, h]

theorem get_env (k : Key) (s : Flashwork σ) : (get e k s).2.env = s.env := by
  simp only [get]

/-- A call changes what is read under the key it sets, and no other. -/
theorem get_call (k : Key) (c : FlashCall) (s : Flashwork σ) :
    (get e k (call e s c)).1 = (c.sets k).getD (get e k s).1 := by
  cases c with
  | get k' => exact get_congr (by rw [call, get_env])
  | change k' value =>
    simp only [FlashCall.sets, call]
    by_cases hk : k' = k
    · subst hk
      rw [if_pos rfl, Option.getD_some, get_change]
    · rw [if_neg hk, Option.getD_none]
      exact get_congr (e.getEnvBlob_other _ _ _ _ _ (Ne.symm hk))

/-- **The counters are independent**: after any calls a counter reads as the last value it was
changed to, or as it did before. -/
theorem get_calls (k : Key) (cs : List FlashCall) (s : Flashwork σ) :
    (get e k (calls e s cs)).1 = (newest (FlashCall.sets k) cs).getD (get e k s).1 := by
  rw [← foldl_getD]
  induction cs generalizing s with
  | nil => rfl
  | cons c cs ih =>
    rw [List.foldl_cons, ← get_call]
    exact ih (call e s c)

/-- **Stored counters read back exactly**: at once, and after any further calls. -/
theorem counters_readBack (e : EnvBlob σ) (s : Flashwork σ) :
    (∀ value, (flashGetIDNums e (flashIDNumsChange e value s)).1 = value ∧
      (flashGetBoot e (flashBootChange e value s)).1 = value) ∧
    ∀ cs, (flashGetIDNums e (calls e s cs)).1 =
        (newest (FlashCall.sets .id) cs).getD (flashGetIDNums e s).1 ∧
      (flashGetBoot e (calls e s cs)).1 =
        (newest (FlashCall.sets .bootTimes) cs).getD (flashGetBoot e s).1 :=
  ⟨fun value => ⟨get_change value, get_change value⟩,
    fun cs => ⟨get_calls .id cs s, get_calls .bootTimes cs s⟩⟩

end Flashwork

/-! ## The storage of the program -/

/-- The environment of a `Store`. -/
def Store.envBlob : EnvBlob Store where
  setEnv s k value := s.apply (.setEnv k value)
  getEnvBlob s k bufLen :=
    let value := (s.env k).getD []
    (value.take bufLen, min value.length bufLen)
  getEnvBlob_self s k value bufLen := by
    simp only [Store.apply, Function.update_self, Option.getD_some]
  getEnvBlob_other s k k' value bufLen h := by
    simp only [Store.apply, Function.update_of_ne h]

namespace Flashwork

variable (s : Flashwork Store) (k : Key)

/-- On a `Store` the functions are `Store.flashGet` and `flashChange`. -/
theorem get_envBlob : (get Store.envBlob k s).1 = s.env.flashGet k := by
  have hlen : (((s.env.env k).getD []).take 64).length ≤ 64 := List.length_take_le _ _
  have hu8 : u8 (min ((s.env.env k).getD []).length 64) =
      (((s.env.env k).getD []).take 64).length := by
    rw [List.length_take, Nat.min_comm]
    exact u8_of_lt (by omega)
  simp only [get, Store.envBlob, Store.flashGet, hu8, toList_filled hlen, Scanf.atol_append_zeros]

theorem change_envBlob (value : UInt32) :
    (change Store.envBlob k value s).env = s.env.apply (flashChange k value) := rfl

end Flashwork

end Spsi
