import Mathlib.Tactic.IntervalCases
import ToonVpu.Foundation.Text
import ToonVpu.Lib.Io

/-!
# Firmware — the program of the BIT processor (`lib/vpu_util.c`, `lib/vpu_lib.c`)

`vpu_Init` reads the firmware file, copies it in pairs of half-words into the code buffer of the
process, in an order that depends on the SoC, and writes its first 2048 half-words to the program
memory of the BIT processor.  A process that finds the processor running does none of this.
`vpu_SWReset` resets the processor and writes its program memory again, from the code buffer of the
process that calls it.

The file is what `fopen` and `fread` give of the name that is composed, or `none`.  The stack is what
lies in and behind the header before it is read.  Registers other than `BIT_CODE_DOWN`, and the locks,
are left out here.
-/

namespace ToonVpu
namespace Lib

open Foundation
open Foundation.Runs
open Foundation.Text

/-! ## The SoC -/

/-- `mxc_cpu()` of `system_rev`. -/
def mxcCpu (systemRev : ℕ) : ℕ := systemRev / 4096

def cpuIsMx27 (systemRev : ℕ) : Bool := mxcCpu systemRev = 0x27

def cpuIsMx37 (systemRev : ℕ) : Bool := mxcCpu systemRev = 0x37

def cpuIsMx5x (systemRev : ℕ) : Bool := mxcCpu systemRev = 0x51 || mxcCpu systemRev = 0x53

/-- `cpu_is_mx27_rev`. -/
def cpuIsMx27Rev (systemRev rev : ℕ) : ℤ :=
  if cpuIsMx27 systemRev then
    if systemRev % 256 = rev then 1 else if systemRev % 256 < rev then -1 else 2
  else
    0

/-- `get_system_rev`: `none` when `/proc/cpuinfo` cannot be read, otherwise the number of its line
`Revision`, where it has one; any number that is not of an i.MX27 is replaced. -/
def getSystemRev (systemRev : ℕ) (cpuinfo : Option (Option ℕ)) : ℕ × ℤ :=
  match cpuinfo with
  | none => (systemRev, -1)
  | some revision =>
    let systemRev' := revision.getD systemRev
    if mxcCpu systemRev' ≠ 0x27 then (0x27020, 0)
    else (systemRev', if revision.isSome then 0 else -1)

/-! ## The file -/

/-- `sprintf("%2x")`. -/
def hexText (n : ℕ) : List UInt8 :=
  let digits := (Nat.toDigits 16 n).map Char.toUInt8
  List.replicate (2 - digits.length) 32 ++ digits

/-- The name that `LoadBitCodeTable` composes; the path is that of `VPU_FW_PATH`. -/
def firmwareName (systemRev : ℕ) (fwPath : Option (List UInt8)) : List UInt8 :=
  fwPath.getD (ascii "/lib/firmware/vpu") ++ ascii "/" ++
    if 0 < cpuIsMx27Rev systemRev 0x20 then ascii "vpu_fw_imx27_TO2.bin"
    else if 0 < cpuIsMx27Rev systemRev 0x10 then ascii "vpu_fw_imx27_TO1.bin"
    else ascii "vpu_fw_imx" ++ hexText (mxcCpu systemRev) ++ ascii ".bin"

/-- Half-words as `fread` puts them into an array. -/
def halfWords : List UInt8 → List UInt16
  | a :: b :: rest => (a.toUInt16 ||| b.toUInt16 <<< 8) :: halfWords rest
  | _ => []

/-- A word of four bytes. -/
def word32 (bytes : List UInt8) : ℕ :=
  (bytes.getD 0 0).toNat + 256 * (bytes.getD 1 0).toNat + 65536 * (bytes.getD 2 0).toNat +
    16777216 * (bytes.getD 3 0).toNat

/-- `sizeof(headerInfo)` -/
def headerSize : ℕ := 16

/-- `MAX_FW_BINARY_LEN`, in half-words. -/
def maxFwBinaryLen : ℕ := 102400

/-- `LoadBitCodeTable`: the half-words, and how often the file was closed. -/
def loadBitCodeTable (systemRev : ℕ) (file : Option (List UInt8)) (stack : List UInt8) :
    Option (List UInt16) × ℕ :=
  match file with
  | none => (none, 0)
  | some bytes =>
    let info := bytes.take headerSize ++ stack.drop (bytes.take headerSize).length
    let size := word32 (info.drop 12)
    let words := halfWords (bytes.drop headerSize)
    if maxFwBinaryLen < size then
      (none, 1)
    else if words.length < size then
      (none, 1)
    else if strstr (info.takeWhile (· ≠ 0)) (hexText (mxcCpu systemRev)) = none then
      -- the label `err` closes the file once more
      (none, 2)
    else
      (some (words.take size), 1)

/-! ## The code buffer -/

/-- `(a << 16) | b`. -/
def codeWord (a b : UInt16) : UInt32 := a.toUInt32 <<< 16 ||| b.toUInt32

/-- `data_hi` and `data_lo`. -/
def dataHi (data : UInt32) : UInt16 := (data >>> 16 &&& 0xFFFF).toUInt16

def dataLo (data : UInt32) : UInt16 := (data &&& 0xFFFF).toUInt16

def swab32 (x : UInt32) : UInt32 :=
  (x &&& 0x000000ff) <<< 24 ||| (x &&& 0x0000ff00) <<< 8 ||| (x &&& 0x00ff0000) >>> 8 |||
    (x &&& 0xff000000) >>> 24

/-- The array `bit_code`, which is zero behind what was read. -/
def bitCode (words : List UInt16) (i : ℕ) : UInt16 := words.getD i 0

/-- The stores of `DownloadBitCodeTable` into the code buffer, by word. -/
def downloadStores (systemRev : ℕ) (words : List UInt16) : List (ℕ × UInt32) :=
  if cpuIsMx5x systemRev then
    (List.range ((words.length + 3) / 4)).flatMap fun k =>
      [(2 * k + 1, codeWord (bitCode words (4 * k)) (bitCode words (4 * k + 1))),
        (2 * k, codeWord (bitCode words (4 * k + 2)) (bitCode words (4 * k + 3)))]
  else
    (List.range ((words.length + 1) / 2)).map fun k =>
      let data := codeWord (bitCode words (2 * k)) (bitCode words (2 * k + 1))
      (k, if cpuIsMx37 systemRev then swab32 data else data)

/-- A code buffer, by word. -/
abbrev CodeBuf : Type := ℕ → UInt32

def CodeBuf.store (buf : CodeBuf) (stores : List (ℕ × UInt32)) : CodeBuf :=
  stores.foldl (fun buf s => Function.update buf s.1 s.2) buf

/-- `DownloadBitCodeTable`, once the table is loaded. -/
def downloadBitCodeTable (systemRev : ℕ) (words : List UInt16) (buf : CodeBuf) : CodeBuf :=
  buf.store (downloadStores systemRev words)

/-! ## The program memory -/

/-- A value for `BIT_CODE_DOWN`: the address and the half-word. -/
def codeDown (i : ℕ) (data : UInt16) : UInt32 := UInt32.ofNat i <<< 16 ||| data.toUInt32

/-- What `vpu_Init` writes to `BIT_CODE_DOWN`. -/
def initDownloads (words : List UInt16) : List UInt32 :=
  (List.range 2048).map fun i => codeDown i (bitCode words i)

/-- What `vpu_SWReset` writes to `BIT_CODE_DOWN`. -/
def swResetDownloads (systemRev : ℕ) (p : CodeBuf) : List UInt32 :=
  if cpuIsMx5x systemRev then
    (List.range 512).flatMap fun k =>
      [codeDown (4 * k) (dataHi (p (2 * k + 1))), codeDown (4 * k + 1) (dataLo (p (2 * k + 1))),
        codeDown (4 * k + 2) (dataHi (p (2 * k))), codeDown (4 * k + 3) (dataLo (p (2 * k)))]
  else
    (List.range 1024).flatMap fun k =>
      let data := if cpuIsMx37 systemRev then swab32 (p k) else p k
      [codeDown (2 * k) (dataHi data), codeDown (2 * k + 1) (dataLo data)]

/-! ## Half-words in the code buffer -/

section Words

variable {systemRev : ℕ} {words : List UInt16} {buf : CodeBuf} {i : ℕ}

@[simp] theorem dataHi_codeWord (a b : UInt16) : dataHi (codeWord a b) = a := by
  apply UInt16.toBitVec_inj.mp
  apply BitVec.eq_of_getLsbD_eq
  intro i hi
  interval_cases i <;> simp [dataHi, codeWord]

@[simp] theorem dataLo_codeWord (a b : UInt16) : dataLo (codeWord a b) = b := by
  apply UInt16.toBitVec_inj.mp
  apply BitVec.eq_of_getLsbD_eq
  intro i hi
  interval_cases i <;> simp [dataLo, codeWord]

@[simp] theorem swab32_swab32 (x : UInt32) : swab32 (swab32 x) = x := by
  apply UInt32.toBitVec_inj.mp
  apply BitVec.eq_of_getLsbD_eq
  intro i hi
  interval_cases i <;> simp [swab32]

theorem codeDown_inj (i : ℕ) {a b : UInt16} : codeDown i a = codeDown i b ↔ a = b := by
  refine ⟨fun h => ?_, fun h => h ▸ rfl⟩
  have hlow (x : UInt16) : dataLo (codeDown i x) = x := by
    apply UInt16.toBitVec_inj.mp
    apply BitVec.eq_of_getLsbD_eq
    intro j hj
    interval_cases j <;> simp [dataLo, codeDown]
  rw [← hlow a, h, hlow b]

/-- The word of the code buffer in which `vpu_SWReset` finds the half-word `i`. -/
def wordOf (systemRev i : ℕ) : ℕ :=
  if cpuIsMx5x systemRev then i / 4 * 2 + if i % 4 < 2 then 1 else 0 else i / 2

/-- The half-word `i` as `vpu_SWReset` finds it. -/
def codeAt (systemRev : ℕ) (p : CodeBuf) (i : ℕ) : UInt16 :=
  let w := p (wordOf systemRev i)
  let data := if cpuIsMx37 systemRev then swab32 w else w
  if i % 2 = 0 then dataHi data else dataLo data

theorem not_mx37_of_mx5x (h : cpuIsMx5x systemRev = true) : cpuIsMx37 systemRev = false := by
  simp only [cpuIsMx5x, cpuIsMx37, Bool.or_eq_true, decide_eq_true_eq, decide_eq_false_iff_not] at h ⊢
  omega

/-- The number of half-words that are stored: the last word or pair of words is filled up. -/
def storedHalfWords (systemRev : ℕ) (words : List UInt16) : ℕ :=
  if cpuIsMx5x systemRev then (words.length + 3) / 4 * 4 else (words.length + 1) / 2 * 2

theorem length_le_stored (systemRev : ℕ) (words : List UInt16) :
    words.length ≤ storedHalfWords systemRev words := by
  unfold storedHalfWords
  split <;> omega

/-- Blocks of `n` one behind the other. -/
theorem flatMap_range_blocks {α : Type*} (f : ℕ → α) (m n : ℕ) :
    (List.range m).flatMap (fun k => (List.range n).map fun j => f (n * k + j)) =
      (List.range (n * m)).map f := by
  induction m with
  | zero => rfl
  | succ m ih =>
    rw [List.range_succ, List.flatMap_append, ih, Nat.mul_succ, List.range_add, List.map_append]
    simp

/-- `vpu_SWReset` writes the half-words in their order. -/
theorem swResetDownloads_eq (systemRev : ℕ) (p : CodeBuf) :
    swResetDownloads systemRev p =
      (List.range 2048).map fun i => codeDown i (codeAt systemRev p i) := by
  unfold swResetDownloads
  split
  · rename_i hcpu
    have hswap := not_mx37_of_mx5x hcpu
    rw [show 2048 = 4 * 512 from rfl, ← flatMap_range_blocks]
    refine List.flatMap_congr fun k _ => ?_
    have h0 : 4 * k % 2 = 0 := by omega
    have h1 : (4 * k + 1) / 4 = k ∧ (4 * k + 1) % 4 = 1 ∧ (4 * k + 1) % 2 = 1 := by omega
    have h2 : (4 * k + 2) / 4 = k ∧ (4 * k + 2) % 4 = 2 ∧ (4 * k + 2) % 2 = 0 := by omega
    have h3 : (4 * k + 3) / 4 = k ∧ (4 * k + 3) % 4 = 3 ∧ (4 * k + 3) % 2 = 1 := by omega
    simp [List.range_succ, codeAt, wordOf, hcpu, hswap, h0, h1, h2, h3, Nat.mul_comm k 2]
  · rename_i hcpu
    rw [show 2048 = 2 * 1024 from rfl, ← flatMap_range_blocks]
    refine List.flatMap_congr fun k _ => ?_
    have h1 : (2 * k + 1) / 2 = k ∧ (2 * k + 1) % 2 = 1 := by omega
    simp [List.range_succ, codeAt, wordOf, hcpu, h1]

/-- Stores that agree on what each word gets. -/
theorem store_eq {f : ℕ → UInt32} {stores : List (ℕ × UInt32)} (hf : ∀ s ∈ stores, s.2 = f s.1)
    (buf : CodeBuf) (j : ℕ) :
    buf.store stores j = if j ∈ stores.map Prod.fst then f j else buf j := by
  unfold CodeBuf.store
  induction stores generalizing buf with
  | nil => simp
  | cons s stores ih =>
    rw [List.foldl_cons, ih (fun x hx => hf x (List.mem_cons_of_mem s hx))]
    by_cases hmem : j ∈ stores.map Prod.fst
    · rw [if_pos hmem, if_pos (by simp only [List.map_cons, List.mem_cons, hmem, or_true])]
    · by_cases hj : j = s.1
      · subst hj
        rw [if_neg hmem, Function.update_self, if_pos (by simp)]
        exact hf s List.mem_cons_self
      · rw [if_neg hmem, Function.update_of_ne hj, if_neg (by simpa [hj] using hmem)]

/-- The word of the code buffer that half-words of the table make up. -/
def tableWord (systemRev : ℕ) (words : List UInt16) (j : ℕ) : UInt32 :=
  if cpuIsMx5x systemRev then
    let i := if j % 2 = 0 then 2 * j + 2 else 2 * j - 2
    codeWord (bitCode words i) (bitCode words (i + 1))
  else
    let data := codeWord (bitCode words (2 * j)) (bitCode words (2 * j + 1))
    if cpuIsMx37 systemRev then swab32 data else data

theorem downloadStores_table (systemRev : ℕ) (words : List UInt16) :
    ∀ s ∈ downloadStores systemRev words, s.2 = tableWord systemRev words s.1 := by
  intro s hs
  unfold downloadStores at hs
  unfold tableWord
  split at hs
  · rename_i hcpu
    obtain ⟨k, -, hs⟩ := List.mem_flatMap.mp hs
    have hodd : (2 * k + 1) % 2 = 1 ∧ 2 * (2 * k + 1) - 2 = 4 * k := by omega
    have heven : 2 * k % 2 = 0 ∧ 2 * (2 * k) + 2 = 4 * k + 2 := by omega
    simp only [List.mem_cons, List.not_mem_nil, or_false] at hs
    rcases hs with rfl | rfl
    · simp [hcpu, hodd]
    · simp [hcpu, heven]
  · rename_i hcpu
    obtain ⟨k, -, rfl⟩ := List.mem_map.mp hs
    simp [hcpu]

/-- The words that are stored are those of the half-words that are. -/
theorem mem_downloadStores (systemRev : ℕ) (words : List UInt16) (j : ℕ) :
    j ∈ (downloadStores systemRev words).map Prod.fst ↔
      2 * j < storedHalfWords systemRev words := by
  unfold downloadStores storedHalfWords
  split
  · simp only [List.map_flatMap, List.map_cons, List.map_nil, List.mem_flatMap, List.mem_range,
      List.mem_cons, List.not_mem_nil, or_false]
    constructor
    · rintro ⟨k, hk, rfl | rfl⟩ <;> omega
    · intro hj
      exact ⟨j / 2, by omega, by omega⟩
  · simp only [List.map_map, List.mem_map, List.mem_range, Function.comp_apply, exists_eq_right]
    omega

/-- The half-words of the table are found where they belong. -/
theorem codeAt_tableWord (systemRev : ℕ) (words : List UInt16) (i : ℕ) :
    codeAt systemRev (tableWord systemRev words) i = bitCode words i := by
  unfold codeAt wordOf tableWord
  by_cases hcpu : cpuIsMx5x systemRev = true
  · have hswap := not_mx37_of_mx5x hcpu
    have hcases : i % 4 = 0 ∨ i % 4 = 1 ∨ i % 4 = 2 ∨ i % 4 = 3 := by omega
    rcases hcases with h | h | h | h
    · have hpos : (i / 4 * 2 + 1) % 2 = 1 ∧ 2 * (i / 4 * 2 + 1) - 2 = i ∧ i % 2 = 0 := by omega
      simp [hcpu, hswap, h, hpos]
    · have hpos : (i / 4 * 2 + 1) % 2 = 1 ∧ 2 * (i / 4 * 2 + 1) - 2 + 1 = i ∧ i % 2 = 1 := by omega
      simp [hcpu, hswap, h, hpos]
    · have hpos : 2 * (i / 4 * 2) + 2 = i ∧ i % 2 = 0 := by omega
      simp [hcpu, hswap, h, hpos]
    · have hpos : 2 * (i / 4 * 2) + 2 + 1 = i ∧ i % 2 = 1 := by omega
      simp [hcpu, hswap, h, hpos]
  · have hcases : i % 2 = 0 ∧ 2 * (i / 2) = i ∨ i % 2 = 1 ∧ 2 * (i / 2) + 1 = i := by omega
    rcases hcases with ⟨h, hpos⟩ | ⟨h, hpos⟩
    · cases hswap : cpuIsMx37 systemRev <;> simp [hcpu, h, hpos]
    · cases hswap : cpuIsMx37 systemRev <;> simp [hcpu, h, hpos]

/-- Words are stored whole. -/
theorem wordOf_stored (systemRev : ℕ) (words : List UInt16) (i : ℕ) :
    2 * wordOf systemRev i < storedHalfWords systemRev words ↔
      i < storedHalfWords systemRev words := by
  unfold wordOf storedHalfWords
  split
  · split <;> omega
  · omega

/-- Where the table was stored, the half-words are those of the table; the others are as before. -/
theorem codeAt_download (systemRev : ℕ) (words : List UInt16) (buf : CodeBuf) (i : ℕ) :
    codeAt systemRev (downloadBitCodeTable systemRev words buf) i =
      if i < storedHalfWords systemRev words then bitCode words i else codeAt systemRev buf i := by
  have hword := store_eq (downloadStores_table systemRev words) buf (wordOf systemRev i)
  simp only [mem_downloadStores, wordOf_stored] at hword
  have hsame : downloadBitCodeTable systemRev words buf (wordOf systemRev i) =
      if i < storedHalfWords systemRev words then tableWord systemRev words (wordOf systemRev i)
      else buf (wordOf systemRev i) := hword
  by_cases hi : i < storedHalfWords systemRev words
  · rw [if_pos hi] at hsame ⊢
    rw [← codeAt_tableWord]
    unfold codeAt
    rw [hsame]
  · rw [if_neg hi] at hsame ⊢
    unfold codeAt
    rw [hsame]

end Words

/-! ## What is loaded and what is stored -/

section Loading

variable {systemRev : ℕ} {words : List UInt16}

/-- Every board is taken for an i.MX27. -/
theorem getSystemRev_mx27 {rev : ℕ} {cpuinfo : Option (Option ℕ)}
    (h : (getSystemRev rev cpuinfo).2 = 0) : cpuIsMx27 (getSystemRev rev cpuinfo).1 = true := by
  unfold getSystemRev at h ⊢
  cases cpuinfo with
  | none => cases h
  | some revision =>
    simp only at h ⊢
    split
    · rfl
    · rename_i hcpu
      simpa [cpuIsMx27] using hcpu

theorem loadBitCodeTable_length {file : Option (List UInt8)} {stack : List UInt8}
    (h : (loadBitCodeTable systemRev file stack).1 = some words) : words.length ≤ maxFwBinaryLen := by
  unfold loadBitCodeTable at h
  cases file with
  | none => cases h
  | some bytes =>
    simp only at h
    split at h
    · cases h
    rename_i hmax
    split at h
    · cases h
    split at h
    · cases h
    cases h
    exact (List.length_take_le _ _).trans (Nat.le_of_not_lt hmax)

/-- The stores stay in the code buffer exactly for a table of no more half-words than it has. -/
theorem downloadStores_inside_iff (systemRev : ℕ) (words : List UInt16) :
    (∀ s ∈ downloadStores systemRev words, 4 * s.1 + 4 ≤ codeBufSize) ↔
      2 * words.length ≤ codeBufSize := by
  have hmem := mem_downloadStores systemRev words
  have hle := length_le_stored systemRev words
  have hless : storedHalfWords systemRev words < words.length + 4 ∧
      storedHalfWords systemRev words % 2 = 0 ∧
      (cpuIsMx5x systemRev = false → storedHalfWords systemRev words < words.length + 2) := by
    unfold storedHalfWords
    split
    · rename_i hcpu
      exact ⟨by omega, by omega, fun hnot => absurd (hcpu.symm.trans hnot) (by decide)⟩
    · omega
  unfold codeBufSize
  constructor
  · intro hall
    by_contra hlong
    obtain ⟨s, hs, hword⟩ := List.mem_map.mp ((hmem 16384).mpr (by omega))
    have hinside := hall s hs
    omega
  · intro hshort s hs
    have hword := (hmem s.1).mp (List.mem_map_of_mem hs)
    unfold storedHalfWords at hword
    split at hword <;> omega

end Loading

/-! ## Resets that write the firmware again -/

section Resets

variable {systemRev : ℕ} {words : List UInt16} {buf : CodeBuf}

theorem bitCode_past {i : ℕ} (h : words.length ≤ i) : bitCode words i = 0 := by
  rw [bitCode, List.getD_eq_getElem?_getD, List.getElem?_eq_none h, Option.getD_none]

/-- A reset writes what `vpu_Init` wrote exactly when the half-words it finds are those of the
table. -/
theorem swReset_eq_init_iff (systemRev : ℕ) (words : List UInt16) (p : CodeBuf) :
    swResetDownloads systemRev p = initDownloads words ↔
      ∀ i < 2048, codeAt systemRev p i = bitCode words i := by
  rw [swResetDownloads_eq, initDownloads, List.map_inj_left]
  constructor
  · intro h i hi
    exact (codeDown_inj i).mp (h i (List.mem_range.mpr hi))
  · intro h i hi
    rw [h i (List.mem_range.mp hi)]

/-- After `vpu_Init` of the same process a reset writes what that wrote, in the order of every SoC,
exactly when the buffer was zero behind a table that is short. -/
theorem swReset_restores_iff (systemRev : ℕ) (words : List UInt16) (buf : CodeBuf) :
    swResetDownloads systemRev (downloadBitCodeTable systemRev words buf) = initDownloads words ↔
      ∀ i, storedHalfWords systemRev words ≤ i → i < 2048 → codeAt systemRev buf i = 0 := by
  rw [swReset_eq_init_iff]
  constructor
  · intro h i hstored hi
    have hsame := h i hi
    rw [codeAt_download, if_neg (Nat.not_lt.mpr hstored)] at hsame
    rw [hsame, bitCode_past ((length_le_stored systemRev words).trans hstored)]
  · intro h i hi
    rw [codeAt_download]
    split
    · rfl
    · rename_i hstored
      have hpast := Nat.le_of_not_lt hstored
      rw [h i hpast hi, bitCode_past ((length_le_stored systemRev words).trans hpast)]

/-- A buffer in which no half-word is that of the table. -/
def strangeBuf (systemRev : ℕ) (words : List UInt16) : CodeBuf :=
  tableWord systemRev ((List.range 2048).map fun i => bitCode words i + 1)

theorem codeAt_strangeBuf (systemRev : ℕ) (words : List UInt16) {i : ℕ} (hi : i < 2048) :
    codeAt systemRev (strangeBuf systemRev words) i ≠ bitCode words i := by
  rw [strangeBuf, codeAt_tableWord]
  simp [bitCode, List.getD_eq_getElem?_getD, hi]

end Resets

/-! ## Processes of a board -/

/-- `init` is the call of `vpu_Init` that a process may make once; `found` says whether the firmware
can be loaded.  A process that exits closes the device. -/
inductive BoardAct
  | init (pid : ℕ) (found : Bool)
  | swReset (pid : ℕ)
  | exit (pid : ℕ)
  deriving DecidableEq, Repr

/-- Who has the device open, and who of them has loaded the firmware. -/
structure Crew where
  running : Bool
  opened : List ℕ
  loaded : List ℕ
  deriving DecidableEq, Repr

def Crew.boot : Crew := ⟨false, [], []⟩

/-- The process that is to load the firmware: the first one. -/
def Crew.Loads (c : Crew) (found : Bool) : Prop := c.running = false ∧ found = true

instance (c : Crew) (found : Bool) : Decidable (c.Loads found) :=
  inferInstanceAs (Decidable (_ ∧ _))

def Crew.step (c : Crew) : BoardAct → Crew
  | .init pid found =>
    if pid ∈ c.opened then c
    else if c.Loads found then ⟨true, pid :: c.opened, pid :: c.loaded⟩
    else { c with opened := pid :: c.opened }
  | .swReset _ => c
  | .exit pid =>
    let opened := c.opened.filter (· ≠ pid)
    -- the last one that closes the device resets the processor
    ⟨c.running && !opened.isEmpty, opened, c.loaded.filter (· ≠ pid)⟩

/-- A reset needs an instance that is open, and so a processor that runs. -/
def Crew.Resets (c : Crew) (pid : ℕ) : Prop := c.running = true ∧ pid ∈ c.opened

instance (c : Crew) (pid : ℕ) : Decidable (c.Resets pid) := inferInstanceAs (Decidable (_ ∧ _))

/-- Resets come from a process that has loaded the firmware, and this is not short. -/
def OwnResets (systemRev : ℕ) (words : List UInt16) (c : Crew) : BoardAct → Prop
  | .swReset pid => c.Resets pid → pid ∈ c.loaded ∧ 2048 ≤ storedHalfWords systemRev words
  | _ => True

/-- The crew with its code buffers, the last 2048 writes to `BIT_CODE_DOWN`, and how often a buffer
was given out. -/
structure Board where
  crew : Crew
  code : ℕ → CodeBuf
  program : List UInt32
  opens : ℕ

def Board.boot : Board := ⟨.boot, fun _ _ => 0, [], 0⟩

/-- `fresh` is what lies in the code buffers when they are given out. -/
def Board.step (systemRev : ℕ) (words : List UInt16) (fresh : ℕ → CodeBuf) (b : Board)
    (a : BoardAct) : Board :=
  let crew := b.crew.step a
  match a with
  | .init pid found =>
    if pid ∈ b.crew.opened then b
    else if b.crew.Loads found then
      ⟨crew, Function.update b.code pid (downloadBitCodeTable systemRev words (fresh b.opens)),
        initDownloads words, b.opens + 1⟩
    else ⟨crew, Function.update b.code pid (fresh b.opens), b.program, b.opens + 1⟩
  | .swReset pid =>
    if b.crew.Resets pid then { b with program := swResetDownloads systemRev (b.code pid) } else b
  | .exit _ => { b with crew := crew }

/-- What runs is the firmware. -/
def Board.RunsFirmware (words : List UInt16) (b : Board) : Prop :=
  b.crew.running = true → b.program = initDownloads words

section Boards

variable {systemRev : ℕ} {words : List UInt16} {fresh : ℕ → CodeBuf} {b : Board} {a : BoardAct}

/-- The buffer of a process is as it was given out, or holds the table over it. -/
structure Board.Inv (systemRev : ℕ) (words : List UInt16) (fresh : ℕ → CodeBuf) (b : Board) :
    Prop where
  loaded_opened : ∀ pid ∈ b.crew.loaded, pid ∈ b.crew.opened
  loaded : ∀ pid ∈ b.crew.loaded, ∃ n, b.code pid = downloadBitCodeTable systemRev words (fresh n)
  other : ∀ pid ∈ b.crew.opened, pid ∉ b.crew.loaded → ∃ n, b.code pid = fresh n
  runs : b.RunsFirmware words

theorem step_crew (systemRev : ℕ) (words : List UInt16) (fresh : ℕ → CodeBuf) (b : Board)
    (a : BoardAct) : (b.step systemRev words fresh a).crew = b.crew.step a := by
  cases a with
  | init pid found =>
    simp only [Board.step, Crew.step]
    split
    · rfl
    · split <;> rfl
  | swReset pid =>
    simp only [Board.step, Crew.step]
    split <;> rfl
  | exit pid => rfl

theorem stateAt_crew (systemRev : ℕ) (words : List UInt16) (fresh : ℕ → CodeBuf)
    (acts : List BoardAct) (n : ℕ) :
    (stateAt (Board.step systemRev words fresh) .boot acts n).crew =
      stateAt Crew.step .boot acts n := by
  unfold stateAt
  generalize acts.take n = done
  rw [show Crew.boot = Board.boot.crew from rfl]
  generalize Board.boot = b
  induction done generalizing b with
  | nil => rfl
  | cons a done ih => rw [List.foldl_cons, List.foldl_cons, ih, step_crew]

/-- A new process: nothing changes for the others. -/
theorem Board.Inv.init (hinv : b.Inv systemRev words fresh) (pid : ℕ) (found : Bool) :
    (b.step systemRev words fresh (.init pid found)).Inv systemRev words fresh := by
  by_cases hopen : pid ∈ b.crew.opened
  · simpa [Board.step, hopen] using hinv
  have hfar {other : ℕ} (h : other ∈ b.crew.opened) : other ≠ pid := fun heq => hopen (heq ▸ h)
  by_cases hload : b.crew.Loads found
  · simp only [Board.step, Crew.step, if_neg hopen, if_pos hload]
    refine ⟨?_, ?_, ?_, ?_⟩ <;> dsimp only [Board.RunsFirmware]
    · intro other h
      rcases List.mem_cons.mp h with rfl | h
      · exact List.mem_cons_self
      · exact List.mem_cons_of_mem pid (hinv.loaded_opened other h)
    · intro other h
      by_cases hpid : other = pid
      · exact ⟨b.opens, by rw [hpid, Function.update_self]⟩
      · rw [Function.update_of_ne hpid]
        exact hinv.loaded other ((List.mem_cons.mp h).resolve_left hpid)
    · intro other h hnot
      have hpid : other ≠ pid := fun heq => hnot (heq ▸ List.mem_cons_self)
      rw [Function.update_of_ne hpid]
      exact hinv.other other ((List.mem_cons.mp h).resolve_left hpid)
        fun hmem => hnot (List.mem_cons_of_mem pid hmem)
    · exact fun _ => rfl
  · simp only [Board.step, Crew.step, if_neg hopen, if_neg hload]
    refine ⟨?_, ?_, ?_, hinv.runs⟩ <;> dsimp only
    · exact fun other h => List.mem_cons_of_mem pid (hinv.loaded_opened other h)
    · intro other h
      rw [Function.update_of_ne (hfar (hinv.loaded_opened other h))]
      exact hinv.loaded other h
    · intro other h hnot
      by_cases hpid : other = pid
      · exact ⟨b.opens, by rw [hpid, Function.update_self]⟩
      · rw [Function.update_of_ne hpid]
        exact hinv.other other ((List.mem_cons.mp h).resolve_left hpid) hnot

theorem Board.Inv.exit (hinv : b.Inv systemRev words fresh) (pid : ℕ) :
    (b.step systemRev words fresh (.exit pid)).Inv systemRev words fresh := by
  simp only [Board.step, Crew.step]
  refine ⟨?_, ?_, ?_, ?_⟩
  · intro other h
    obtain ⟨hmem, hne⟩ := List.mem_filter.mp h
    exact List.mem_filter.mpr ⟨hinv.loaded_opened other hmem, hne⟩
  · exact fun other h => hinv.loaded other (List.mem_filter.mp h).1
  · intro other h hnot
    obtain ⟨hmem, hne⟩ := List.mem_filter.mp h
    exact hinv.other other hmem fun hloaded => hnot (List.mem_filter.mpr ⟨hloaded, hne⟩)
  · intro hrunning
    exact hinv.runs (Bool.and_eq_true_iff.mp hrunning).1

/-- What a reset that is one's own writes. -/
theorem Board.Inv.reset_own (hinv : b.Inv systemRev words fresh) {pid : ℕ}
    (hloaded : pid ∈ b.crew.loaded) (hlong : 2048 ≤ storedHalfWords systemRev words) :
    swResetDownloads systemRev (b.code pid) = initDownloads words := by
  obtain ⟨n, hcode⟩ := hinv.loaded pid hloaded
  rw [hcode, swReset_eq_init_iff]
  intro i hi
  rw [codeAt_download, if_pos (hi.trans_le hlong)]

theorem Board.Inv.step (hinv : b.Inv systemRev words fresh)
    (hok : OwnResets systemRev words b.crew a) :
    (b.step systemRev words fresh a).Inv systemRev words fresh := by
  cases a with
  | init pid found => exact hinv.init pid found
  | exit pid => exact hinv.exit pid
  | swReset pid =>
    simp only [Board.step]
    split
    · rename_i hreset
      obtain ⟨hloaded, hlong⟩ := hok hreset
      exact ⟨hinv.loaded_opened, hinv.loaded, hinv.other, fun _ => hinv.reset_own hloaded hlong⟩
    · exact hinv

/-- Where the buffers were strange, a reset that is not one's own writes something else. -/
theorem Board.Inv.own_of_runs (hinv : b.Inv systemRev words fun _ => strangeBuf systemRev words)
    (hruns : (b.step systemRev words (fun _ => strangeBuf systemRev words) a).RunsFirmware words) :
    OwnResets systemRev words b.crew a := by
  cases a with
  | init pid found => trivial
  | exit pid => trivial
  | swReset pid =>
    intro hreset
    simp only [Board.step, if_pos hreset] at hruns
    have hsame := (swReset_eq_init_iff systemRev words (b.code pid)).mp (hruns hreset.1)
    by_cases hloaded : pid ∈ b.crew.loaded
    · refine ⟨hloaded, ?_⟩
      obtain ⟨n, hcode⟩ := hinv.loaded pid hloaded
      by_contra hshort
      have hlast := hsame 2047 (by decide)
      rw [hcode, codeAt_download, if_neg (by omega)] at hlast
      exact codeAt_strangeBuf systemRev words (by decide) hlast
    · obtain ⟨n, hcode⟩ := hinv.other pid hreset.2 hloaded
      have hfirst := hsame 0 (by decide)
      rw [hcode] at hfirst
      exact absurd hfirst (codeAt_strangeBuf systemRev words (by decide))

theorem Board.Inv.boot : Board.boot.Inv systemRev words fresh where
  loaded_opened := by simp [Board.boot, Crew.boot]
  loaded := by simp [Board.boot, Crew.boot]
  other := by simp [Board.boot, Crew.boot]
  runs := by simp [Board.RunsFirmware, Board.boot, Crew.boot]

end Boards

/-- Whatever lies in the code buffers, the processor runs the firmware after every step of a run,
exactly when in this run only processes that loaded a whole program memory reset it. -/
theorem board_runs_firmware_iff (systemRev : ℕ) (words : List UInt16) (acts : List BoardAct) :
    (∀ fresh n, (stateAt (Board.step systemRev words fresh) .boot acts n).RunsFirmware words) ↔
      Along Crew.step .boot acts (OwnResets systemRev words) := by
  constructor
  · intro hall n a ha
    have hown : Along (Board.step systemRev words fun _ => strangeBuf systemRev words) .boot acts
        fun b => OwnResets systemRev words b.crew :=
      (forall_good_iff_along Board.Inv.boot (fun b a hinv hok => hinv.step hok)
        (fun b hinv => hinv.runs) (fun b a hinv hruns => hinv.own_of_runs hruns)).mp (hall _)
    rw [← stateAt_crew systemRev words fun _ => strangeBuf systemRev words]
    exact hown n a ha
  · intro hrun fresh n
    have halong : Along (Board.step systemRev words fresh) .boot acts
        fun b => OwnResets systemRev words b.crew := by
      intro n a ha
      rw [stateAt_crew]
      exact hrun n a ha
    exact (halong.invariant Board.Inv.boot (fun b a hinv hok => hinv.step hok) n).runs

end Lib
end ToonVpu
