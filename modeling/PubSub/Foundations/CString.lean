import Mathlib.Data.List.Basic

/-!
# C strings and character blocks

A {lit}`char*` is modelled by the bytes from the address it points to up to the
end of the allocation, so that reading past the allocation is reading past the
end of a list.  Every function that reads or writes memory returns
{lit}`none` when the C function would leave its buffers: a missing terminator, a
write behind the end of a block, or a violated runtime constraint of one of the
bounds-checked copy functions.

Main results:

- Theorem {lit}`cstring_append`: a buffer that starts with {lit}`s` and a terminator holds
  the string {lit}`s`.
- Theorems {lit}`strcpyS_eq`, {lit}`memcpyS_eq` and {lit}`Block.store_append`:
  what a write within bounds leaves in a block.
- Theorem {lit}`copyFrom_eq`: copying a string from an offset on.
- Theorems {lit}`snprintf_fits` and {lit}`length_snprintf`: formatted output into the rest of a
  block.
- Theorem {lit}`zeroFill_append_zeros`: clearing what is not zero of a buffer.
-/

namespace Foundations

/-- A C {lit}`char`. -/
abbrev Byte := UInt8

/-- Consecutive bytes of memory. -/
abbrev Bytes := List Byte

/-- The byte of an ASCII character literal. -/
def byteOf (c : Char) : Byte :=
  UInt8.ofNat c.toNat

/-- The bytes of an ASCII string literal, without a terminator. -/
def bytesOf (cs : List Char) : Bytes :=
  cs.map byteOf

/-- A string proper: no byte is the terminator. -/
def NulFree (s : Bytes) : Prop :=
  ∀ b ∈ s, b ≠ 0

instance (s : Bytes) : Decidable (NulFree s) :=
  List.decidableBAll (fun b => b ≠ 0) s

@[simp]
theorem nulFree_nil : NulFree [] := by
  simp [NulFree]

@[simp]
theorem nulFree_cons (b : Byte) (s : Bytes) : NulFree (b :: s) ↔ b ≠ 0 ∧ NulFree s := by
  simp [NulFree]

@[simp]
theorem nulFree_append (s t : Bytes) : NulFree (s ++ t) ↔ NulFree s ∧ NulFree t := by
  simp [NulFree, or_imp, forall_and]

/-! ## Reading strings -/

/-- The number of bytes before the first {lit}`c`: the loop that advances an index
while the byte it looks at differs from {lit}`c`. -/
def scanUntil (c : Byte) : Bytes → Option Nat
  | [] => none
  | b :: bs => if b = c then some 0 else (scanUntil c bs).map (· + 1)

/-- The contents of the string that starts here, without its terminator. -/
def cstring : Bytes → Option Bytes
  | [] => none
  | b :: bs => if b = 0 then some [] else (cstring bs).map (b :: ·)

/-- The length of the string that starts here. -/
def strlen (s : Bytes) : Option Nat :=
  scanUntil 0 s

/-- The scan stops at the first occurrence. -/
theorem scanUntil_append (c : Byte) {s : Bytes} (hs : ∀ b ∈ s, b ≠ c) (rest : Bytes) :
    scanUntil c (s ++ c :: rest) = some s.length := by
  induction s with
  | nil => simp [scanUntil]
  | cons b s ih =>
      have hb : b ≠ c := hs b (by simp)
      have hrest := ih fun d hd => hs d (List.mem_cons_of_mem _ hd)
      simp [scanUntil, hb, hrest]

/-- Without an occurrence the scan leaves the memory. -/
theorem scanUntil_eq_none {c : Byte} {s : Bytes} (hs : ∀ b ∈ s, b ≠ c) : scanUntil c s = none := by
  induction s with
  | nil => rfl
  | cons b s ih =>
      rw [scanUntil, if_neg (hs b (by simp)), ih fun d hd => hs d (by simp [hd]), Option.map_none]

theorem strlen_append {s : Bytes} (hs : NulFree s) (rest : Bytes) :
    strlen (s ++ 0 :: rest) = some s.length :=
  scanUntil_append 0 hs rest

theorem cstring_append {s : Bytes} (hs : NulFree s) (rest : Bytes) :
    cstring (s ++ 0 :: rest) = some s := by
  induction s with
  | nil => simp [cstring]
  | cons b s ih =>
      rw [nulFree_cons] at hs
      simp [cstring, hs.1, ih hs.2]

/-! ## Writing to allocated blocks -/

/-- The bytes of an allocation; {lit}`none` marks a byte not yet written. -/
abbrev Block := List (Option Byte)

/-- Allocate a block.  A negative size becomes a huge unsigned one, for which
the allocation fails. -/
def malloc (size : Int) : Option Block :=
  if 0 ≤ size then some (List.replicate size.toNat none) else none

namespace Block

/-- Write consecutive bytes at an offset of the block. -/
def store (blk : Block) (offset : Nat) (bytes : Bytes) : Option Block :=
  if offset + bytes.length ≤ blk.length then
    some (blk.take offset ++ bytes.map some ++ blk.drop (offset + bytes.length))
  else none

/-- The bytes of a block; fails if one of them has not been written. -/
def bytes (blk : Block) : Option Bytes :=
  blk.mapM id

/-- The string in a block that has been written completely. -/
def cstring (blk : Block) : Option Bytes :=
  blk.bytes.bind Foundations.cstring

/-- Writing right behind the initialised part of a block extends that part. -/
theorem store_append (pre bytes : Bytes) {offset free : Nat} (hoff : offset = pre.length)
    (hfree : bytes.length ≤ free) :
    Block.store (pre.map some ++ List.replicate free none) offset bytes =
      some ((pre ++ bytes).map some ++ List.replicate (free - bytes.length) none) := by
  subst hoff
  have hfit : pre.length + bytes.length ≤
      (pre.map some ++ List.replicate free (none : Option Byte)).length := by
    simp
    omega
  rw [store, if_pos hfit]
  simp [List.drop_append]

/-- Overwriting bytes inside a block. -/
theorem store_over (pre old post : Block) {bytes : Bytes} {offset : Nat}
    (hoff : offset = pre.length) (hlen : old.length = bytes.length) :
    Block.store (pre ++ old ++ post) offset bytes = some (pre ++ bytes.map some ++ post) := by
  subst hoff
  have hfit : pre.length + bytes.length ≤ (pre ++ old ++ post).length := by
    simp
    omega
  rw [store, if_pos hfit, ← hlen]
  simp [List.append_assoc, List.drop_append]

theorem bytes_map_some (bytes : Bytes) : Block.bytes (bytes.map some) = some bytes := by
  induction bytes with
  | nil => rfl
  | cons b bytes ih =>
      rw [Block.bytes] at ih ⊢
      simp [ih]

/-- A block that has been filled holds the string it starts with. -/
theorem cstring_full (bytes : Bytes) {free : Nat} (hfree : free = 0) :
    Block.cstring (bytes.map some ++ List.replicate free none) =
      Foundations.cstring bytes := by
  subst hfree
  rw [List.replicate_zero, List.append_nil, cstring, bytes_map_some, Option.bind_some]

end Block

/-- Copy {lit}`count` bytes. -/
def memcpy (dest : Block) (offset : Nat) (src : Bytes) (count : Nat) : Option Block :=
  if count ≤ src.length then dest.store offset (src.take count) else none

/-- Copy {lit}`count` bytes; the constraint is that they fit the declared size. -/
def memcpyS (dest : Block) (offset : Nat) (destSize : Int) (src : Bytes) (count : Int) :
    Option Block :=
  if 0 ≤ count ∧ count ≤ destSize ∧ count.toNat ≤ src.length then
    dest.store offset (src.take count.toNat)
  else none

/-- Copy a string with its terminator; the constraint is that it fits the
declared size. -/
def strcpyS (dest : Block) (offset : Nat) (destSize : Int) (src : Bytes) : Option Block :=
  (cstring src).bind fun s =>
    if (s.length : Int) + 1 ≤ destSize then dest.store offset (s ++ [0]) else none

theorem malloc_eq (size : Nat) : malloc size = some (List.replicate size none) := by
  simp [malloc]

theorem memcpy_eq (dest : Block) (offset : Nat) (bytes rest : Bytes) {count : Nat}
    (hcount : count = bytes.length) :
    memcpy dest offset (bytes ++ rest) count = dest.store offset bytes := by
  subst hcount
  simp [memcpy]

theorem memcpyS_eq (dest : Block) (offset : Nat) (bytes rest : Bytes) :
    memcpyS dest offset bytes.length (bytes ++ rest) bytes.length =
      dest.store offset bytes := by
  simp [memcpyS]

theorem strcpyS_eq (dest : Block) (offset : Nat) {s : Bytes} (hs : NulFree s) (rest : Bytes) :
    strcpyS dest offset ((s.length : Int) + 1) (s ++ 0 :: rest) =
      dest.store offset (s ++ [0]) := by
  simp [strcpyS, cstring_append hs]

/-- Allocate a copy of the string without its first {lit}`offset` bytes. -/
def copyFrom (offset : Nat) (src : Bytes) : Option Bytes := do
  let length ← strlen src
  let size : Int := (length : Int) + 1 - offset
  let block ← malloc size
  let block ← strcpyS block 0 size (src.drop offset)
  block.cstring

theorem copyFrom_eq {s t : Bytes} (hs : NulFree s) (ht : NulFree t) (rest : Bytes) :
    copyFrom s.length (s ++ (t ++ 0 :: rest)) = some t := by
  have hlength : strlen (s ++ (t ++ 0 :: rest)) = some (s.length + t.length) := by
    rw [← List.append_assoc, strlen_append (by simp [hs, ht]), List.length_append]
  have hsize : ((s.length + t.length : Nat) : Int) + 1 - (s.length : Nat) =
      (t.length : Int) + 1 := by
    omega
  have hblock : malloc ((t.length : Int) + 1) =
      some (([] : Bytes).map some ++ List.replicate (t.length + 1) none) :=
    malloc_eq (t.length + 1)
  have hstring : cstring ([] ++ (t ++ [0])) = some t := cstring_append ht []
  simp only [copyFrom, hlength, hsize, hblock, Option.bind_eq_bind, Option.bind_some,
    List.drop_left]
  simp (disch := simp) only [strcpyS_eq _ _ ht, Block.store_append, Block.cstring_full, hstring,
    Option.bind_some]

/-! ## Formatted output -/

/-- {lit}`a - b` for two values of type {lit}`size_t`.  Fails where it would wrap around. -/
def sizeSub (a b : UInt64) : Option UInt64 :=
  if b ≤ a then some (a - b) else none

/-- The length of a text, as the {lit}`int` that {lit}`snprintf` returns: negative if it is none. -/
def returnedLength (text : Bytes) : Int :=
  if text.length ≤ 0x7FFFFFFF then text.length else -1

/-- {lit}`snprintf` of a text into {lit}`size` bytes of a block.  As much of it as fits is written,
with a terminator, and nothing if there is no byte.  What is returned does not depend on
how much that is. -/
def snprintf (dest : Block) (offset size : Nat) (text : Bytes) : Option (Block × Int) :=
  if size = 0 then some (dest, returnedLength text)
  else
    (dest.store offset (text.take (size - 1) ++ [0])).map fun dest =>
      (dest, returnedLength text)

theorem sizeSub_eq {a b : UInt64} (hle : b.toNat ≤ a.toNat) : sizeSub a b = some (a - b) :=
  if_pos (UInt64.le_iff_toNat_le.mpr hle)

theorem returnedLength_eq {text : Bytes} (hint : text.length ≤ 0x7FFFFFFF) :
    returnedLength text = text.length :=
  if_pos hint

/-- A text that fits, in the part of a block behind what has been written. -/
theorem snprintf_fits (pre free : Block) {offset size : Nat} {text : Bytes}
    (hoffset : offset = pre.length) (hfits : text.length < size) (hsize : size ≤ free.length) :
    snprintf (pre ++ free) offset size text =
      some (pre ++ (text ++ [0]).map some ++ free.drop (text.length + 1), returnedLength text) := by
  have hlength : (free.take (text.length + 1)).length = (text ++ [0]).length := by
    simp only [List.length_take, List.length_append, List.length_singleton]
    omega
  have hstore := Block.store_over pre (free.take (text.length + 1)) (free.drop (text.length + 1))
    hoffset hlength
  rw [List.append_assoc, List.take_append_drop] at hstore
  rw [snprintf, if_neg (by omega), List.take_of_length_le (by omega), hstore, Option.map_some]

/-- A text that need not fit: nothing is written outside the bytes it may use. -/
theorem length_snprintf {dest : Block} {offset size : Nat} (text : Bytes)
    (hsize : offset + size ≤ dest.length) :
    ∃ dest', snprintf dest offset size text = some (dest', returnedLength text) ∧
      dest'.length = dest.length := by
  by_cases hzero : size = 0
  · exact ⟨dest, by rw [snprintf, if_pos hzero], rfl⟩
  · have hfit : offset + (text.take (size - 1) ++ [0]).length ≤ dest.length := by
      simp only [List.length_append, List.length_take, List.length_singleton]
      omega
    rw [snprintf, if_neg hzero, Block.store, if_pos hfit, Option.map_some]
    refine ⟨_, rfl, ?_⟩
    simp only [List.length_append, List.length_map, List.length_drop, List.length_take,
      List.length_singleton] at hfit ⊢
    omega

/-! ## Initialised buffers -/

/-- Overwrite the beginning of a buffer. -/
def overwrite (buffer bytes : Bytes) : Option Bytes :=
  if bytes.length ≤ buffer.length then some (bytes ++ buffer.drop bytes.length) else none

/-- Zero the first {lit}`count` bytes of a buffer. -/
def zeroFill (buffer : Bytes) (count : Nat) : Option Bytes :=
  overwrite buffer (List.replicate count 0)

/-- A buffer of zeros. -/
def zeros (size : Nat) : Bytes :=
  List.replicate size 0

@[simp]
theorem length_zeros (size : Nat) : (zeros size).length = size := by
  simp [zeros]

theorem zeros_succ (size : Nat) : zeros (size + 1) = 0 :: zeros size := by
  rw [zeros, List.replicate_succ, zeros]

theorem zeroFill_all {buffer : Bytes} {count : Nat} (h : buffer.length = count) :
    zeroFill buffer count = some (zeros count) := by
  subst h
  simp [zeroFill, overwrite, zeros]

/-- Zeroing at least the part of a buffer that is not zero leaves zeros. -/
theorem zeroFill_append_zeros {bytes : Bytes} {count free : Nat} (hcount : bytes.length ≤ count)
    (hfit : count ≤ bytes.length + free) :
    zeroFill (bytes ++ zeros free) count = some (zeros (bytes.length + free)) := by
  unfold zeroFill overwrite
  rw [if_pos (by simpa using hfit)]
  simp only [zeros, List.length_replicate, List.drop_append, List.drop_replicate,
    List.drop_eq_nil_of_le hcount, List.nil_append, List.replicate_append_replicate]
  congr 2
  omega

end Foundations
