/-
  MESSAGEPACK STRUCTURE (`mutsuki-runtime-wire/src/binary/payload/structure.rs`).

  `validate_messagepack_structure` walks a payload with a shared offset before it is
  deserialised.

  * The walk: `parseValue`, with the offset as its state.  Its first argument is the room
    for nesting that is left, `MAX_MSGPACK_NESTING_DEPTH + 1 - depth`.
  * `Accepts`: the data a walk goes over.  It is put together as the walk is (`Accepts.bind`).
  * A walk goes over the values, and over nothing else (`accepts_parseValue`).

  Indexing and `expect` are modelled as panics; the sums and products are those of a 64-bit
  `usize`.  A Rust slice has fewer than 2^63 bytes (`ByteSlice`).
-/
import MutsukiRuntime.Contracts.Value
import MutsukiRuntime.Wire.Protocol

namespace MutsukiRuntime

open BigEndian Prog List

def maxMsgpackNestingDepth : Nat := 64
def maxMsgpackContainerItems : Nat := 65536

namespace MessagePack

/-! ## The walk -/

/-- A program that moves the offset. -/
abbrev Walk (α : Type) := Prog Nat WireCodecError α

def decodeError (detail : String) : WireCodecError := .decode detail

def take (bytes : Bytes) (length : Nat) : Walk Bytes := do
  let offset ← read
  if offset + length > usizeMax then fail (decodeError "MessagePack length overflow")
  else if offset + length > bytes.length then fail (decodeError "truncated MessagePack value")
  else do
    update (· + length)
    pure (slice bytes offset (offset + length))

def skip (bytes : Bytes) (length : Nat) : Walk Unit := do
  let _ ← take bytes length
  pure ()

def readByte (bytes : Bytes) : Walk UInt8 := do
  let offset ← read
  match bytes[offset]? with
  | none => fail (decodeError "truncated MessagePack value")
  | some value => do
    update (· + 1)
    pure value

/-- `read_u16`; the two bytes of the slice are taken by index. -/
def readWord16 (bytes : Bytes) : Walk UInt16 := do
  match ← take bytes 2 with
  | [high, low] => pure (readU16 [high, low])
  | _ => crash "index out of bounds"

def readWord32 (bytes : Bytes) : Walk UInt32 := do
  let word ← take bytes 4
  if word.length = 4 then pure (readU32 word) else crash "four-byte value"

def parseExtension (bytes : Bytes) (length : Nat) : Walk Unit :=
  skip bytes (min (length + 1) usizeMax)

/-- `parse_container`; `item` is the parser of an item, one level down. -/
def parseContainer (item : Walk Unit) (count : Nat) (map : Bool) : Walk Unit :=
  if count > maxMsgpackContainerItems then
    fail (decodeError "MessagePack container item limit exceeded")
  else if map ∧ count * 2 > usizeMax then fail (decodeError "MessagePack map length overflow")
  else forEach (List.replicate (if map then count * 2 else count) ()) fun _ => item

/-- The arms of `parse_value`. -/
def parseMarked (bytes : Bytes) (item : Walk Unit) (marker : UInt8) : Walk Unit :=
  let m := marker.toNat
  if m ≤ 0x7f ∨ m = 0xc0 ∨ m = 0xc2 ∨ m = 0xc3 ∨ 0xe0 ≤ m then pure ()
  else if m ≤ 0x8f then parseContainer item (marker &&& 0x0f).toNat true
  else if m ≤ 0x9f then parseContainer item (marker &&& 0x0f).toNat false
  else if m ≤ 0xbf then skip bytes (marker &&& 0x1f).toNat
  else if m = 0xc1 then fail (decodeError "reserved MessagePack marker")
  else if m = 0xc4 ∨ m = 0xd9 then do
    let length ← readByte bytes
    skip bytes length.toNat
  else if m = 0xc5 ∨ m = 0xda then do
    let length ← readWord16 bytes
    skip bytes length.toNat
  else if m = 0xc6 ∨ m = 0xdb then do
    let length ← readWord32 bytes
    skip bytes length.toNat
  else if m = 0xc7 then do
    let length ← readByte bytes
    parseExtension bytes length.toNat
  else if m = 0xc8 then do
    let length ← readWord16 bytes
    parseExtension bytes length.toNat
  else if m = 0xc9 then do
    let length ← readWord32 bytes
    parseExtension bytes length.toNat
  else if m = 0xca then skip bytes 4
  else if m = 0xcb then skip bytes 8
  else if m = 0xcc ∨ m = 0xd0 then skip bytes 1
  else if m = 0xcd ∨ m = 0xd1 then skip bytes 2
  else if m = 0xce ∨ m = 0xd2 then skip bytes 4
  else if m = 0xcf ∨ m = 0xd3 then skip bytes 8
  else if m = 0xd4 then parseExtension bytes 1
  else if m = 0xd5 then parseExtension bytes 2
  else if m = 0xd6 then parseExtension bytes 4
  else if m = 0xd7 then parseExtension bytes 8
  else if m = 0xd8 then parseExtension bytes 16
  else if m = 0xdc then do
    let count ← readWord16 bytes
    parseContainer item count.toNat false
  else if m = 0xdd then do
    let count ← readWord32 bytes
    parseContainer item count.toNat false
  else if m = 0xde then do
    let count ← readWord16 bytes
    parseContainer item count.toNat true
  else do
    let count ← readWord32 bytes
    parseContainer item count.toNat true

def parseValue (bytes : Bytes) : (room : Nat) → Walk Unit
  | 0 => fail (decodeError "MessagePack nesting depth exceeded")
  | room + 1 => do
    let marker ← readByte bytes
    parseMarked bytes (parseValue bytes room) marker

/-- The walk of `validate_messagepack_structure`, from offset 0 and depth 0. -/
def validateStructure (bytes : Bytes) : Walk Unit := do
  parseValue bytes (maxMsgpackNestingDepth + 1)
  if (← read) ≠ bytes.length then
    fail (decodeError "trailing bytes after MessagePack value")
  else pure ()

/-- A byte slice has at most `isize::MAX` bytes. -/
structure ByteSlice where
  bytes : Bytes
  bounded : bytes.length < 2 ^ 63

def validateMessagepackStructure (slice : ByteSlice) : Outcome WireCodecError Unit :=
  ((validateStructure slice.bytes).run 0).1

/-! ## The grammar -/

/-- First byte and bytes of data: float, uint and int. -/
def numbers : List (UInt8 × Nat) :=
  [ (0xca, 4), (0xcb, 8), (0xcc, 1), (0xcd, 2), (0xce, 4), (0xcf, 8),
    (0xd0, 1), (0xd1, 2), (0xd2, 4), (0xd3, 8) ]

/-- First byte and bytes of data: fixext. -/
def fixedExtensions : List (UInt8 × Nat) :=
  [(0xd4, 1), (0xd5, 2), (0xd6, 4), (0xd7, 8), (0xd8, 16)]

/-- First byte and bytes of the length: bin and str. -/
def strings : List (UInt8 × Nat) :=
  [(0xc4, 1), (0xc5, 2), (0xc6, 4), (0xd9, 1), (0xda, 2), (0xdb, 4)]

/-- First byte and bytes of the length: ext. -/
def extensions : List (UInt8 × Nat) := [(0xc7, 1), (0xc8, 2), (0xc9, 4)]

/-- First byte and bytes of the count: array. -/
def arrays : List (UInt8 × Nat) := [(0xdc, 2), (0xdd, 4)]

/-- First byte and bytes of the count: map. -/
def maps : List (UInt8 × Nat) := [(0xde, 2), (0xdf, 4)]

/-- `Value limit n bytes`: one value whose containers have at most `limit` items, with nesting at
    most `n`.  A container that is not empty nests one level more than its items. -/
inductive Value (limit : Nat) : Nat → Bytes → Prop
  | fixint {n : Nat} (b : UInt8) (h : b.toNat < 0x80 ∨ 0xe0 ≤ b.toNat) : Value limit n [b]
  | nil {n : Nat} : Value limit n [0xc0]
  | false {n : Nat} : Value limit n [0xc2]
  | true {n : Nat} : Value limit n [0xc3]
  | number {n : Nat} {first : UInt8} {width : Nat} (h : (first, width) ∈ numbers) {data : Bytes}
      (hdata : data.length = width) : Value limit n (first :: data)
  | fixext {n : Nat} {first : UInt8} {size : Nat} (h : (first, size) ∈ fixedExtensions)
      (type : UInt8) {data : Bytes} (hdata : data.length = size) :
      Value limit n (first :: type :: data)
  | fixstr {n : Nat} {data : Bytes} (h : data.length < 32) :
      Value limit n (UInt8.ofNat (0xa0 + data.length) :: data)
  | string {n : Nat} {first : UInt8} {width : Nat} (h : (first, width) ∈ strings) {data : Bytes}
      (hdata : data.length < 256 ^ width) :
      Value limit n (first :: (toBytes width data.length ++ data))
  | ext {n : Nat} {first : UInt8} {width : Nat} (h : (first, width) ∈ extensions) (type : UInt8)
      {data : Bytes} (hdata : data.length < 256 ^ width) :
      Value limit n (first :: (toBytes width data.length ++ type :: data))
  | fixarray {n m : Nat} {items : List Bytes} (h : items.length < 16)
      (hlimit : items.length ≤ limit) (hnest : items ≠ [] → m < n)
      (hitems : ∀ item ∈ items, Value limit m item) :
      Value limit n (UInt8.ofNat (0x90 + items.length) :: items.flatten)
  | array {n m : Nat} {first : UInt8} {width : Nat} (h : (first, width) ∈ arrays)
      {items : List Bytes} (hcount : items.length < 256 ^ width)
      (hlimit : items.length ≤ limit) (hnest : items ≠ [] → m < n)
      (hitems : ∀ item ∈ items, Value limit m item) :
      Value limit n (first :: (toBytes width items.length ++ items.flatten))
  | fixmap {n m : Nat} {entries : List (Bytes × Bytes)} (h : entries.length < 16)
      (hlimit : entries.length ≤ limit) (hnest : entries ≠ [] → m < n)
      (hkeys : ∀ entry ∈ entries, Value limit m entry.1)
      (hvalues : ∀ entry ∈ entries, Value limit m entry.2) :
      Value limit n (UInt8.ofNat (0x80 + entries.length) ::
        entries.flatMap fun entry => entry.1 ++ entry.2)
  | map {n m : Nat} {first : UInt8} {width : Nat} (h : (first, width) ∈ maps)
      {entries : List (Bytes × Bytes)} (hcount : entries.length < 256 ^ width)
      (hlimit : entries.length ≤ limit) (hnest : entries ≠ [] → m < n)
      (hkeys : ∀ entry ∈ entries, Value limit m entry.1)
      (hvalues : ∀ entry ∈ entries, Value limit m entry.2) :
      Value limit n (first :: (toBytes width entries.length ++
        entries.flatMap fun entry => entry.1 ++ entry.2))

/-! ## What the readers read -/

/-- From `start` the input goes on with `data`, and `stop` is the offset behind it. -/
structure Reads (bytes : Bytes) (start : Nat) (data : Bytes) (stop : Nat) : Prop where
  split : bytes.drop start = data ++ bytes.drop stop
  stop_eq : stop = start + data.length
  inside : stop ≤ bytes.length

section Readers

variable {bytes data : Bytes} {start middle stop : Nat}

theorem Reads.nil (h : start ≤ bytes.length) : Reads bytes start [] start := ⟨rfl, rfl, h⟩

variable {more : Bytes}

theorem Reads.append (h : Reads bytes start data middle)
    (h' : Reads bytes middle more stop) : Reads bytes start (data ++ more) stop where
  split := by rw [h.split, h'.split, append_assoc]
  stop_eq := by rw [h'.stop_eq, h.stop_eq, length_append, Nat.add_assoc]
  inside := h'.inside

theorem Reads.of_append (h : Reads bytes start (data ++ more) stop) :
    ∃ middle, Reads bytes start data middle ∧ Reads bytes middle more stop := by
  have hstop := h.stop_eq
  have hinside := h.inside
  rw [length_append] at hstop
  have hdrop : bytes.drop (start + data.length) = more ++ bytes.drop stop := by
    rw [← drop_drop, h.split, append_assoc, drop_left]
  refine ⟨start + data.length, ⟨?_, rfl, by omega⟩, ⟨hdrop, by omega, hinside⟩⟩
  rw [h.split, hdrop, append_assoc]

/-- The walk returns `value` exactly where the input goes on with data that `P` gives it, and
    stops behind that data; it does not panic. -/
def Accepts {α : Type} (bytes : Bytes) (m : Walk α) (P : α → Bytes → Prop) : Prop :=
  ∀ start ≤ bytes.length, (∀ site stop, m.run start ≠ (.panic site, stop)) ∧
    ∀ value stop, m.run start = (.ok value, stop) ↔
      ∃ data, P value data ∧ Reads bytes start data stop

variable {α β : Type} {m : Walk α} {f : α → Walk β} {P P' : α → Bytes → Prop}
  {Q : α → β → Bytes → Prop}

theorem Accepts.congr (h : Accepts bytes m P) (hP : ∀ value data, P value data ↔ P' value data) :
    Accepts bytes m P' := by
  intro start hstart
  simp only [← hP]
  exact h start hstart

theorem accepts_pure (value : α) :
    Accepts bytes (pure value : Walk α) fun result data => result = value ∧ data = [] := by
  refine fun start hstart => ⟨fun _ _ h => (by cases h), fun result stop => ⟨fun h => ?_, ?_⟩⟩
  · cases h
    exact ⟨[], ⟨rfl, rfl⟩, .nil hstart⟩
  · rintro ⟨_, ⟨rfl, rfl⟩, hreads⟩
    rw [show stop = start from hreads.stop_eq]
    rfl

theorem accepts_fail (error : WireCodecError) :
    Accepts bytes (fail error : Walk α) fun _ _ => False :=
  fun _ _ => ⟨fun _ _ h => (by cases h), fun _ _ => ⟨fun h => (by cases h), by simp⟩⟩

/-- One walk after the other, over one piece of data after the other. -/
theorem Accepts.bind (h : Accepts bytes m P)
    (hf : ∀ value data, P value data → Accepts bytes (f value) (Q value)) :
    Accepts bytes (m >>= f) fun result data =>
      ∃ value first more, P value first ∧ Q value result more ∧ data = first ++ more := by
  intro start hstart
  obtain ⟨hsafe, hok⟩ := h start hstart
  constructor
  · intro site stop hrun
    rw [run_bind] at hrun
    split at hrun
    · next value middle hfirst =>
      obtain ⟨data, hdata, hreads⟩ := (hok value middle).1 hfirst
      exact (hf value data hdata middle hreads.inside).1 site stop hrun
    · cases hrun
    · next hpanic => exact hsafe _ _ hpanic
  · intro result stop
    rw [run_bind_eq_ok]
    constructor
    · rintro ⟨value, middle, hfirst, hrest⟩
      obtain ⟨first, hdata, hreads⟩ := (hok value middle).1 hfirst
      obtain ⟨more, hmore, hreads'⟩ :=
        ((hf value first hdata middle hreads.inside).2 result stop).1 hrest
      exact ⟨_, ⟨value, first, more, hdata, hmore, rfl⟩, hreads.append hreads'⟩
    · rintro ⟨_, ⟨value, first, more, hdata, hmore, rfl⟩, hreads⟩
      obtain ⟨middle, hfirst, hrest⟩ := hreads.of_append
      exact ⟨value, middle, (hok value middle).2 ⟨first, hdata, hfirst⟩,
        ((hf value first hdata middle hfirst.inside).2 result stop).2 ⟨more, hmore, hrest⟩⟩

variable {length : Nat}

theorem accepts_take (hbytes : bytes.length < 2 ^ 63) (length : Nat) :
    Accepts bytes (take bytes length) fun value data => data = value ∧ data.length = length := by
  intro start _
  unfold take
  rw [run_read_bind]
  by_cases hinside : start + length ≤ bytes.length
  · have hlength : (slice bytes start (start + length)).length = length := by
      rw [length_slice (Nat.le_add_right _ _) hinside, Nat.add_sub_cancel_left]
    rw [if_neg (by unfold usizeMax; omega), if_neg (by omega), run_update_bind, run_pure]
    refine ⟨fun _ _ h => (by cases h), fun value stop => ⟨fun h => ?_, ?_⟩⟩
    · cases h
      exact ⟨_, ⟨rfl, hlength⟩, (slice_append_drop bytes (Nat.le_add_right _ _)).symm,
        by rw [hlength], hinside⟩
    · rintro ⟨_, ⟨rfl, rfl⟩, hreads⟩
      rw [slice, Nat.add_sub_cancel_left, hreads.split, take_left, hreads.stop_eq]
  · rw [if_pos (not_le.1 hinside), ← apply_ite (fail : WireCodecError → Walk Bytes)]
    refine ⟨fun _ _ h => (by cases h), fun value stop => ⟨fun h => (by cases h), ?_⟩⟩
    rintro ⟨_, ⟨rfl, rfl⟩, hreads⟩
    exact absurd (hreads.stop_eq ▸ hreads.inside) hinside

theorem accepts_skip (hbytes : bytes.length < 2 ^ 63) (length : Nat) :
    Accepts bytes (skip bytes length) fun _ data => data.length = length :=
  ((accepts_take hbytes length).bind fun _ _ _ => accepts_pure ()).congr (by simp)

theorem accepts_readByte :
    Accepts bytes (readByte bytes) fun value data => data = [value] := by
  intro start _
  unfold readByte
  rw [run_read_bind]
  have hdrop : (bytes.drop start)[0]? = bytes[start]? := getElem?_drop
  cases hfound : bytes[start]? with
  | none =>
    refine ⟨fun _ _ h => (by cases h), fun value stop => ⟨fun h => (by cases h), ?_⟩⟩
    rintro ⟨_, rfl, hreads⟩
    rw [hreads.split, hfound] at hdrop
    cases hdrop
  | some found =>
    dsimp only
    rw [run_update_bind, run_pure]
    refine ⟨fun _ _ h => (by cases h), fun value stop => ⟨fun h => ?_, ?_⟩⟩
    · cases h
      obtain ⟨hlt, hget⟩ := List.getElem?_eq_some_iff.1 hfound
      refine ⟨_, rfl, ?_, rfl, hlt⟩
      rw [drop_eq_getElem_cons hlt, hget]
      rfl
    · rintro ⟨_, rfl, hreads⟩
      rw [hreads.split, hfound] at hdrop
      cases hdrop
      rw [hreads.stop_eq]
      rfl

theorem accepts_readWord16 (hbytes : bytes.length < 2 ^ 63) :
    Accepts bytes (readWord16 bytes) fun word data => data = u16 word := by
  refine ((accepts_take hbytes 2).bind
    (Q := fun taken word data => word = readU16 taken ∧ data = []) fun taken _ h => ?_).congr
    fun word data => ⟨?_, ?_⟩
  · obtain ⟨high, low, rfl⟩ := length_eq_two.1 (h.1 ▸ h.2)
    exact accepts_pure _
  · rintro ⟨taken, _, _, ⟨rfl, hlength⟩, ⟨rfl, rfl⟩, rfl⟩
    rw [append_nil, u16_readU16 hlength]
  · rintro rfl
    exact ⟨_, _, [], ⟨rfl, length_u16 word⟩, ⟨(readU16_u16 word).symm, rfl⟩, (append_nil _).symm⟩

theorem accepts_readWord32 (hbytes : bytes.length < 2 ^ 63) :
    Accepts bytes (readWord32 bytes) fun word data => data = u32 word := by
  refine ((accepts_take hbytes 4).bind
    (Q := fun taken word data => word = readU32 taken ∧ data = []) fun taken _ h => ?_).congr
    fun word data => ⟨?_, ?_⟩
  · rw [if_pos (h.1 ▸ h.2)]
    exact accepts_pure _
  · rintro ⟨taken, _, _, ⟨rfl, hlength⟩, ⟨rfl, rfl⟩, rfl⟩
    rw [append_nil, u32_readU32 hlength]
  · rintro rfl
    exact ⟨_, _, [], ⟨rfl, length_u32 word⟩, ⟨(readU32_u32 word).symm, rfl⟩, (append_nil _).symm⟩

theorem accepts_parseExtension (hbytes : bytes.length < 2 ^ 63) (hlength : length < 2 ^ 32) :
    Accepts bytes (parseExtension bytes length) fun _ data => data.length = length + 1 := by
  have hmin : min (length + 1) usizeMax = length + 1 := by
    unfold usizeMax
    omega
  rw [parseExtension, hmin]
  exact accepts_skip hbytes _

variable {item : Walk Unit} {V : Bytes → Prop}

theorem accepts_forEach (hitem : Accepts bytes item fun _ => V) (count : Nat) :
    Accepts bytes (forEach (List.replicate count ()) fun _ => item) fun _ data =>
      ∃ items : List Bytes, items.length = count ∧ (∀ data ∈ items, V data) ∧
        data = items.flatten := by
  induction count with
  | zero => exact (accepts_pure ()).congr (by simp [length_eq_zero_iff])
  | succ count ih =>
    refine (hitem.bind fun _ _ _ => ih).congr fun _ data => ⟨?_, ?_⟩
    · rintro ⟨_, first, _, hfirst, ⟨items, rfl, hitems, rfl⟩, rfl⟩
      exact ⟨first :: items, rfl, forall_mem_cons.2 ⟨hfirst, hitems⟩, rfl⟩
    · rintro ⟨items, hlength, hitems, rfl⟩
      obtain ⟨first, items, rfl⟩ := exists_cons_of_length_eq_add_one hlength
      rw [forall_mem_cons] at hitems
      exact ⟨(), first, _, hitems.1, ⟨items, Nat.succ.inj hlength, hitems.2, rfl⟩, rfl⟩

/-- The data of a container of `count` items, or of `count` entries if it is a map. -/
def Items (V : Bytes → Prop) (map : Bool) (count : Nat) (data : Bytes) : Prop :=
  count ≤ maxMsgpackContainerItems ∧ ∃ items : List Bytes,
    items.length = (if map then count * 2 else count) ∧ (∀ data ∈ items, V data) ∧
      data = items.flatten

theorem accepts_parseContainer (hitem : Accepts bytes item fun _ => V) (count : Nat) (map : Bool) :
    Accepts bytes (parseContainer item count map) fun _ => Items V map count := by
  unfold parseContainer
  by_cases hcount : count ≤ maxMsgpackContainerItems
  · have hoverflow : ¬ (map ∧ count * 2 > usizeMax) := by
      unfold maxMsgpackContainerItems at hcount
      unfold usizeMax
      omega
    rw [if_neg (not_lt.2 hcount), if_neg hoverflow]
    exact (accepts_forEach hitem _).congr fun _ _ => (and_iff_right hcount).symm
  · rw [if_pos (not_le.1 hcount)]
    exact (accepts_fail _).congr fun _ _ => ⟨False.elim, fun h => hcount h.1⟩

end Readers

/-! ## The arms as data -/

/-- The bytes of a length or count. -/
inductive Width where
  | one
  | two
  | four
  deriving DecidableEq

def Width.bytes : Width → Nat
  | one => 1
  | two => 2
  | four => 4

/-- What an arm of `parse_value` does. -/
inductive Arm where
  | single
  | reserved
  | data (length : Nat)
  | extension (size : Nat)
  | container (count : Nat) (map : Bool)
  | sizedData (width : Width)
  | sizedExtension (width : Width)
  | countedContainer (width : Width) (map : Bool)
  deriving DecidableEq

def armOf (marker : UInt8) : Arm :=
  let m := marker.toNat
  if m ≤ 0x7f ∨ m = 0xc0 ∨ m = 0xc2 ∨ m = 0xc3 ∨ 0xe0 ≤ m then .single
  else if m ≤ 0x8f then .container (marker &&& 0x0f).toNat true
  else if m ≤ 0x9f then .container (marker &&& 0x0f).toNat false
  else if m ≤ 0xbf then .data (marker &&& 0x1f).toNat
  else if m = 0xc1 then .reserved
  else if m = 0xc4 ∨ m = 0xd9 then .sizedData .one
  else if m = 0xc5 ∨ m = 0xda then .sizedData .two
  else if m = 0xc6 ∨ m = 0xdb then .sizedData .four
  else if m = 0xc7 then .sizedExtension .one
  else if m = 0xc8 then .sizedExtension .two
  else if m = 0xc9 then .sizedExtension .four
  else if m = 0xca then .data 4
  else if m = 0xcb then .data 8
  else if m = 0xcc ∨ m = 0xd0 then .data 1
  else if m = 0xcd ∨ m = 0xd1 then .data 2
  else if m = 0xce ∨ m = 0xd2 then .data 4
  else if m = 0xcf ∨ m = 0xd3 then .data 8
  else if m = 0xd4 then .extension 1
  else if m = 0xd5 then .extension 2
  else if m = 0xd6 then .extension 4
  else if m = 0xd7 then .extension 8
  else if m = 0xd8 then .extension 16
  else if m = 0xdc then .countedContainer .two false
  else if m = 0xdd then .countedContainer .four false
  else if m = 0xde then .countedContainer .two true
  else .countedContainer .four true

/-- A length or count, then what it is for. -/
def readLength (bytes : Bytes) (next : Nat → Walk Unit) : Width → Walk Unit
  | .one => do
    let length ← readByte bytes
    next length.toNat
  | .two => do
    let length ← readWord16 bytes
    next length.toNat
  | .four => do
    let length ← readWord32 bytes
    next length.toNat

def runArm (bytes : Bytes) (item : Walk Unit) : Arm → Walk Unit
  | .single => pure ()
  | .reserved => fail (decodeError "reserved MessagePack marker")
  | .data length => skip bytes length
  | .extension size => parseExtension bytes size
  | .container count map => parseContainer item count map
  | .sizedData width => readLength bytes (skip bytes) width
  | .sizedExtension width => readLength bytes (parseExtension bytes) width
  | .countedContainer width map =>
    readLength bytes (fun count => parseContainer item count map) width

theorem parseMarked_eq_runArm (bytes : Bytes) (item : Walk Unit) (marker : UInt8) :
    parseMarked bytes item marker = runArm bytes item (armOf marker) := by
  unfold parseMarked armOf
  simp only [apply_ite (runArm bytes item)]
  rfl

/-- The arms agree with the formats, for every first byte. -/
def Agrees (marker : UInt8) : Arm → Prop
  | .single => (marker.toNat < 0x80 ∨ 0xe0 ≤ marker.toNat) ∨ marker = 0xc0 ∨ marker = 0xc2 ∨
      marker = 0xc3
  | .reserved => True
  | .data length => (marker, length) ∈ numbers ∨
      length < 32 ∧ marker = UInt8.ofNat (0xa0 + length)
  | .extension size => (marker, size) ∈ fixedExtensions
  | .container count true => count < 16 ∧ marker = UInt8.ofNat (0x80 + count)
  | .container count false => count < 16 ∧ marker = UInt8.ofNat (0x90 + count)
  | .sizedData width => (marker, width.bytes) ∈ strings
  | .sizedExtension width => (marker, width.bytes) ∈ extensions
  | .countedContainer width true => (marker, width.bytes) ∈ maps
  | .countedContainer width false => (marker, width.bytes) ∈ arrays

instance (marker : UInt8) (arm : Arm) : Decidable (Agrees marker arm) :=
  match arm with
  | .single => inferInstanceAs (Decidable (_ ∨ _))
  | .reserved => inferInstanceAs (Decidable True)
  | .data _ => inferInstanceAs (Decidable (_ ∨ _))
  | .extension _ => inferInstanceAs (Decidable (_ ∈ _))
  | .container _ true => inferInstanceAs (Decidable (_ ∧ _))
  | .container _ false => inferInstanceAs (Decidable (_ ∧ _))
  | .sizedData _ => inferInstanceAs (Decidable (_ ∈ _))
  | .sizedExtension _ => inferInstanceAs (Decidable (_ ∈ _))
  | .countedContainer _ true => inferInstanceAs (Decidable (_ ∈ _))
  | .countedContainer _ false => inferInstanceAs (Decidable (_ ∈ _))

theorem agrees_armOf (marker : UInt8) : Agrees marker (armOf marker) := by
  have hall : ∀ m < 256, Agrees (UInt8.ofNat m) (armOf (UInt8.ofNat m)) := by decide +kernel
  have hmarker := hall marker.toNat marker.toNat_lt
  rwa [UInt8.ofNat_toNat] at hmarker

theorem armOf_formats : (∀ format ∈ numbers, armOf format.1 = .data format.2) ∧
    (∀ format ∈ fixedExtensions, armOf format.1 = .extension format.2) ∧
    (∀ format ∈ strings, ∃ width ∈ [Width.one, .two, .four], width.bytes = format.2 ∧
      armOf format.1 = .sizedData width) ∧
    (∀ format ∈ extensions, ∃ width ∈ [Width.one, .two, .four], width.bytes = format.2 ∧
      armOf format.1 = .sizedExtension width) ∧
    (∀ format ∈ arrays, ∃ width ∈ [Width.one, .two, .four], width.bytes = format.2 ∧
      armOf format.1 = .countedContainer width false) ∧
    (∀ format ∈ maps, ∃ width ∈ [Width.one, .two, .four], width.bytes = format.2 ∧
      armOf format.1 = .countedContainer width true) := by decide +kernel

theorem armOf_fixed : (∀ length < 32, armOf (UInt8.ofNat (0xa0 + length)) = .data length) ∧
    (∀ count < 16, armOf (UInt8.ofNat (0x90 + count)) = .container count false) ∧
    (∀ count < 16, armOf (UInt8.ofNat (0x80 + count)) = .container count true) ∧
    armOf 0xc0 = .single ∧ armOf 0xc2 = .single ∧ armOf 0xc3 = .single := by decide +kernel

theorem armOf_fixint {b : UInt8} (h : b.toNat < 0x80 ∨ 0xe0 ≤ b.toNat) : armOf b = .single := by
  unfold armOf
  exact if_pos (by omega)

section Arms

variable {bytes : Bytes} {limit n : Nat} {V : Bytes → Prop}

/-- A length or count of the given width, and data that goes with it. -/
def Sized (width : Width) (D : Nat → Bytes → Prop) (data : Bytes) : Prop :=
  ∃ length more, length < 256 ^ width.bytes ∧ D length more ∧
    data = toBytes width.bytes length ++ more

theorem Width.lt_two_pow {width : Width} {length : Nat} (h : length < 256 ^ width.bytes) :
    length < 2 ^ 32 := by
  cases width <;> simp only [Width.bytes] at h <;> omega

theorem accepts_readLength (hbytes : bytes.length < 2 ^ 63) {next : Nat → Walk Unit}
    {D : Nat → Bytes → Prop} (width : Width)
    (hnext : ∀ length < 2 ^ 32, Accepts bytes (next length) fun _ => D length) :
    Accepts bytes (readLength bytes next width) fun _ => Sized width D := by
  -- one width, given how its words are read and numbered
  have hfield : ∀ {α : Type} {field : Walk α} {toNat : α → Nat} {encode : α → Bytes}
      (ofNat : Nat → α), Accepts bytes field (fun word data => data = encode word) →
      (∀ word, encode word = toBytes width.bytes (toNat word)) →
      (∀ word, toNat word < 256 ^ width.bytes) →
      (∀ length < 256 ^ width.bytes, toNat (ofNat length) = length) →
      Accepts bytes (field >>= fun word => next (toNat word)) fun _ => Sized width D := by
    intro α field toNat encode ofNat hfield hencode hlt hof
    refine (hfield.bind fun word _ _ => hnext _ (Width.lt_two_pow (hlt word))).congr
      fun _ data => ⟨?_, ?_⟩
    · rintro ⟨word, _, more, rfl, hmore, rfl⟩
      exact ⟨toNat word, more, hlt word, hmore, by rw [hencode]⟩
    · rintro ⟨length, more, hlength, hmore, rfl⟩
      rw [← hof length hlength] at hmore
      exact ⟨ofNat length, _, more, rfl, hmore, by rw [hencode, hof length hlength]⟩
  cases width with
  | one =>
    exact hfield UInt8.ofNat accepts_readByte (by simp [Width.bytes, toBytes]) UInt8.toNat_lt
      fun _ => UInt8.toNat_ofNat_of_lt'
  | two =>
    exact hfield UInt16.ofNat (accepts_readWord16 hbytes) (fun _ => rfl) UInt16.toNat_lt
      fun _ => UInt16.toNat_ofNat_of_lt'
  | four =>
    exact hfield UInt32.ofNat (accepts_readWord32 hbytes) (fun _ => rfl) UInt32.toNat_lt
      fun _ => UInt32.toNat_ofNat_of_lt'

/-- The data behind the first byte, by the arm of that byte. -/
def Body (V : Bytes → Prop) : Arm → Bytes → Prop
  | .single => (· = [])
  | .reserved => fun _ => False
  | .data length => (·.length = length)
  | .extension size => (·.length = size + 1)
  | .container count map => Items V map count
  | .sizedData width => Sized width fun length data => data.length = length
  | .sizedExtension width => Sized width fun length data => data.length = length + 1
  | .countedContainer width map => Sized width (Items V map)

theorem accepts_runArm (hbytes : bytes.length < 2 ^ 63) {item : Walk Unit}
    (hitem : Accepts bytes item fun _ => V) (marker : UInt8) :
    Accepts bytes (runArm bytes item (armOf marker)) fun _ => Body V (armOf marker) := by
  have hagrees := agrees_armOf marker
  cases harm : armOf marker with
  | single => exact (accepts_pure ()).congr (by simp [Body])
  | reserved => exact accepts_fail _
  | data length => exact accepts_skip hbytes length
  | extension size =>
    have hsmall : ∀ format ∈ fixedExtensions, format.2 < 2 ^ 32 := by decide
    rw [harm] at hagrees
    exact accepts_parseExtension hbytes (hsmall _ hagrees)
  | container count map => exact accepts_parseContainer hitem count map
  | sizedData width => exact accepts_readLength hbytes width fun _ _ => accepts_skip hbytes _
  | sizedExtension width =>
    exact accepts_readLength hbytes width fun _ h => accepts_parseExtension hbytes h
  | countedContainer width map =>
    rw [runArm]
    exact accepts_readLength hbytes width fun _ _ => accepts_parseContainer hitem _ map

/-! ## The bodies are those of the values -/

/-- A value nested within at most `n` levels is one nested within more. -/
theorem Value.mono {m : Nat} {data : Bytes} (h : Value limit n data) (hle : n ≤ m) :
    Value limit m data := by
  cases h with
  | fixarray h hlimit hnest hitems =>
    exact .fixarray h hlimit (fun hne => (hnest hne).trans_le hle) hitems
  | array h hcount hlimit hnest hitems =>
    exact .array h hcount hlimit (fun hne => (hnest hne).trans_le hle) hitems
  | fixmap h hlimit hnest hkeys hvalues =>
    exact .fixmap h hlimit (fun hne => (hnest hne).trans_le hle) hkeys hvalues
  | map h hcount hlimit hnest hkeys hvalues =>
    exact .map h hcount hlimit (fun hne => (hnest hne).trans_le hle) hkeys hvalues
  | fixint b h => exact .fixint b h
  | nil => exact .nil
  | false => exact .false
  | true => exact .true
  | number h hdata => exact .number h hdata
  | fixext h type hdata => exact .fixext h type hdata
  | fixstr h => exact .fixstr h
  | string h hdata => exact .string h hdata
  | ext h type hdata => exact .ext h type hdata

/-- An item of a container whose nesting is at most `n`. -/
def ItemOf (n : Nat) (data : Bytes) : Prop :=
  ∃ m, n = m + 1 ∧ Value maxMsgpackContainerItems m data

theorem ItemOf.of_value {m : Nat} {data : Bytes} (hnest : m < n)
    (h : Value maxMsgpackContainerItems m data) : ItemOf n data :=
  ⟨n - 1, by omega, h.mono (by omega)⟩

theorem ItemOf.value {data : Bytes} (h : ItemOf n data) :
    n - 1 < n ∧ Value maxMsgpackContainerItems (n - 1) data := by
  obtain ⟨m, rfl, hvalue⟩ := h
  exact ⟨Nat.lt_succ_self m, hvalue⟩

theorem exists_entries {items : List Bytes} {count : Nat} (h : items.length = count * 2) :
    ∃ entries : List (Bytes × Bytes), entries.length = count ∧
      items = entries.flatMap fun entry => [entry.1, entry.2] := by
  induction count generalizing items with
  | zero => exact ⟨[], rfl, length_eq_zero_iff.1 (by omega)⟩
  | succ count ih =>
    match items, h with
    | [_], h =>
      have hone : 1 = (count + 1) * 2 := h
      omega
    | key :: value :: rest, h =>
      have hcount : rest.length + 1 + 1 = (count + 1) * 2 := h
      obtain ⟨entries, hlength, hrest⟩ := ih (show rest.length = count * 2 by omega)
      exact ⟨(key, value) :: entries, by rw [length_cons, hlength],
        by rw [flatMap_cons, ← hrest]; rfl⟩

theorem flatten_entries (entries : List (Bytes × Bytes)) :
    (entries.flatMap fun entry => [entry.1, entry.2]).flatten =
      entries.flatMap fun entry => entry.1 ++ entry.2 := by
  induction entries with
  | nil => rfl
  | cons entry entries ih => simp [ih]

/-- The data of an array, by its items. -/
theorem items_array {count : Nat} {data : Bytes} :
    Items (ItemOf n) false count data ↔ ∃ m, ∃ items : List Bytes, items.length = count ∧
      items.length ≤ maxMsgpackContainerItems ∧ (items ≠ [] → m < n) ∧
      (∀ item ∈ items, Value maxMsgpackContainerItems m item) ∧ data = items.flatten := by
  constructor
  · rintro ⟨hlimit, items, rfl, hitems, rfl⟩
    refine ⟨n - 1, items, rfl, hlimit, fun hne => ?_, fun item h => (hitems item h).value.2, rfl⟩
    obtain ⟨item, hitem⟩ := exists_mem_of_ne_nil items hne
    exact (hitems item hitem).value.1
  · rintro ⟨m, items, rfl, hlimit, hnest, hitems, rfl⟩
    exact ⟨hlimit, items, rfl, fun item h => .of_value (hnest (ne_nil_of_mem h)) (hitems item h),
      rfl⟩

/-- The data of a map, by its entries. -/
theorem items_map {count : Nat} {data : Bytes} :
    Items (ItemOf n) true count data ↔ ∃ m, ∃ entries : List (Bytes × Bytes),
      entries.length = count ∧ entries.length ≤ maxMsgpackContainerItems ∧
      (entries ≠ [] → m < n) ∧
      (∀ entry ∈ entries, Value maxMsgpackContainerItems m entry.1) ∧
      (∀ entry ∈ entries, Value maxMsgpackContainerItems m entry.2) ∧
      data = entries.flatMap fun entry => entry.1 ++ entry.2 := by
  constructor
  · rintro ⟨hlimit, items, hlength, hitems, rfl⟩
    obtain ⟨entries, rfl, rfl⟩ := exists_entries hlength
    have hentry : ∀ entry ∈ entries, ItemOf n entry.1 ∧ ItemOf n entry.2 := fun entry h =>
      ⟨hitems _ (mem_flatMap.2 ⟨entry, h, by simp⟩), hitems _ (mem_flatMap.2 ⟨entry, h, by simp⟩)⟩
    refine ⟨n - 1, entries, rfl, hlimit, fun hne => ?_, fun entry h => (hentry entry h).1.value.2,
      fun entry h => (hentry entry h).2.value.2, flatten_entries entries⟩
    obtain ⟨entry, h⟩ := exists_mem_of_ne_nil entries hne
    exact (hentry entry h).1.value.1
  · rintro ⟨m, entries, rfl, hlimit, hnest, hkeys, hvalues, rfl⟩
    refine ⟨hlimit, _, by simp [length_flatMap], fun item h => ?_, (flatten_entries entries).symm⟩
    obtain ⟨entry, hentry, hmem⟩ := mem_flatMap.1 h
    have hnest := hnest (ne_nil_of_mem hentry)
    rcases mem_pair.1 hmem with rfl | rfl
    · exact .of_value hnest (hkeys entry hentry)
    · exact .of_value hnest (hvalues entry hentry)

theorem value_of_body {marker : UInt8} {data : Bytes} {arm : Arm} (hagrees : Agrees marker arm)
    (h : Body (ItemOf n) arm data) : Value maxMsgpackContainerItems n (marker :: data) := by
  match arm, hagrees, h with
  | .single, hagrees, h =>
    obtain rfl : data = [] := h
    rcases hagrees with hint | rfl | rfl | rfl
    · exact .fixint marker hint
    · exact .nil
    · exact .false
    · exact .true
  | .reserved, _, h => exact h.elim
  | .data length, hagrees, h =>
    rcases hagrees with hnumber | ⟨hstr, rfl⟩
    · exact .number hnumber h
    · obtain rfl : data.length = length := h
      exact .fixstr hstr
  | .extension size, hagrees, h =>
    obtain ⟨type, data, rfl⟩ := exists_cons_of_length_eq_add_one h
    exact .fixext hagrees type (Nat.succ.inj h)
  | .container count true, ⟨hcount, hmarker⟩, h =>
    obtain ⟨m, entries, rfl, hlimit, hnest, hkeys, hvalues, rfl⟩ := items_map.1 h
    exact hmarker ▸ .fixmap hcount hlimit hnest hkeys hvalues
  | .container count false, ⟨hcount, hmarker⟩, h =>
    obtain ⟨m, items, rfl, hlimit, hnest, hitems, rfl⟩ := items_array.1 h
    exact hmarker ▸ .fixarray hcount hlimit hnest hitems
  | .sizedData width, hagrees, h =>
    obtain ⟨_, data, hlength, rfl, rfl⟩ := h
    exact .string hagrees hlength
  | .sizedExtension width, hagrees, h =>
    obtain ⟨length, more, hlength, hmore, rfl⟩ := h
    obtain ⟨type, data, rfl⟩ := exists_cons_of_length_eq_add_one hmore
    obtain rfl := Nat.succ.inj hmore
    exact .ext hagrees type hlength
  | .countedContainer width true, hagrees, h =>
    obtain ⟨_, _, hcount, hitems, rfl⟩ := h
    obtain ⟨m, entries, rfl, hlimit, hnest, hkeys, hvalues, rfl⟩ := items_map.1 hitems
    exact .map hagrees hcount hlimit hnest hkeys hvalues
  | .countedContainer width false, hagrees, h =>
    obtain ⟨_, _, hcount, hitems, rfl⟩ := h
    obtain ⟨m, items, rfl, hlimit, hnest, hvalues, rfl⟩ := items_array.1 hitems
    exact .array hagrees hcount hlimit hnest hvalues

theorem body_of_value {bytes : Bytes} (h : Value maxMsgpackContainerItems n bytes) :
    ∃ marker data, Body (ItemOf n) (armOf marker) data ∧ bytes = marker :: data := by
  obtain ⟨hnumbers, hfixexts, hstrings, hexts, harrays, hmaps⟩ := armOf_formats
  obtain ⟨hfixstr, hfixarray, hfixmap, hnil, hfalse, htrue⟩ := armOf_fixed
  -- the arm of the first byte, and its body
  suffices harm : ∃ marker arm data, armOf marker = arm ∧ Body (ItemOf n) arm data ∧
      bytes = marker :: data by
    obtain ⟨marker, _, data, rfl, hbody, hbytes⟩ := harm
    exact ⟨marker, data, hbody, hbytes⟩
  cases h with
  | fixint b h => exact ⟨b, _, _, armOf_fixint h, rfl, rfl⟩
  | nil => exact ⟨_, _, _, hnil, rfl, rfl⟩
  | false => exact ⟨_, _, _, hfalse, rfl, rfl⟩
  | true => exact ⟨_, _, _, htrue, rfl, rfl⟩
  | number h hdata => exact ⟨_, _, _, hnumbers _ h, hdata, rfl⟩
  | fixext h type hdata => exact ⟨_, _, type :: _, hfixexts _ h, congrArg (· + 1) hdata, rfl⟩
  | fixstr h => exact ⟨_, _, _, hfixstr _ h, rfl, rfl⟩
  | string h hdata =>
    obtain ⟨width, -, rfl, harm⟩ := hstrings _ h
    exact ⟨_, _, _, harm, ⟨_, _, hdata, rfl, rfl⟩, rfl⟩
  | ext h type hdata =>
    obtain ⟨width, -, rfl, harm⟩ := hexts _ h
    exact ⟨_, _, _, harm, ⟨_, _, hdata, rfl, rfl⟩, rfl⟩
  | fixarray h hlimit hnest hitems =>
    exact ⟨_, _, _, hfixarray _ h, items_array.2 ⟨_, _, rfl, hlimit, hnest, hitems, rfl⟩, rfl⟩
  | array h hcount hlimit hnest hitems =>
    obtain ⟨width, -, rfl, harm⟩ := harrays _ h
    exact ⟨_, _, _, harm, ⟨_, _, hcount,
      items_array.2 ⟨_, _, rfl, hlimit, hnest, hitems, rfl⟩, rfl⟩, rfl⟩
  | fixmap h hlimit hnest hkeys hvalues =>
    exact ⟨_, _, _, hfixmap _ h,
      items_map.2 ⟨_, _, rfl, hlimit, hnest, hkeys, hvalues, rfl⟩, rfl⟩
  | map h hcount hlimit hnest hkeys hvalues =>
    obtain ⟨width, -, rfl, harm⟩ := hmaps _ h
    exact ⟨_, _, _, harm, ⟨_, _, hcount,
      items_map.2 ⟨_, _, rfl, hlimit, hnest, hkeys, hvalues, rfl⟩, rfl⟩, rfl⟩

theorem accepts_parseValue (hbytes : bytes.length < 2 ^ 63) (room : Nat) :
    Accepts bytes (parseValue bytes room) fun _ => ItemOf room := by
  induction room with
  | zero =>
    refine (accepts_fail _).congr fun _ _ => ⟨False.elim, ?_⟩
    rintro ⟨_, hm, _⟩
    cases hm
  | succ room ih =>
    refine (accepts_readByte.bind (Q := fun marker _ => Body (ItemOf room) (armOf marker))
      fun marker _ _ => ?_).congr fun _ data => ⟨?_, ?_⟩
    · rw [parseMarked_eq_runArm]
      exact accepts_runArm hbytes ih marker
    · rintro ⟨marker, _, data, rfl, hbody, rfl⟩
      exact ⟨room, rfl, value_of_body (agrees_armOf marker) hbody⟩
    · rintro ⟨m, hm, hvalue⟩
      obtain rfl := Nat.succ.inj hm
      obtain ⟨marker, data, hbody, rfl⟩ := body_of_value hvalue
      exact ⟨marker, _, data, rfl, hbody, rfl⟩

end Arms

/-- The validator accepts the MessagePack values within the limits, and nothing else; it ends, and
    it reads no byte outside its input. -/
theorem validate_iff_value (input : ByteSlice) : (validateMessagepackStructure input = .ok () ↔
      Value maxMsgpackContainerItems maxMsgpackNestingDepth input.bytes) ∧
    ∀ site, validateMessagepackStructure input ≠ .panic site := by
  obtain ⟨hsafe, hok⟩ := accepts_parseValue input.bounded (maxMsgpackNestingDepth + 1) 0
    (Nat.zero_le _)
  have hvalue : (parseValue input.bytes (maxMsgpackNestingDepth + 1)).run 0 =
      (.ok (), input.bytes.length) ↔
      Value maxMsgpackContainerItems maxMsgpackNestingDepth input.bytes := by
    rw [hok]
    constructor
    · rintro ⟨data, ⟨m, hm, hvalue⟩, hreads⟩
      have hsplit := hreads.split
      rw [drop_length, append_nil] at hsplit
      obtain rfl : maxMsgpackNestingDepth = m := Nat.succ.inj hm
      rwa [show input.bytes = data from hsplit]
    · exact fun h => ⟨_, ⟨_, rfl, h⟩, by rw [drop_length, append_nil]; rfl, (Nat.zero_add _).symm,
        le_refl _⟩
  rw [← hvalue, validateMessagepackStructure, validateStructure, run_bind]
  generalize (parseValue input.bytes (maxMsgpackNestingDepth + 1)).run 0 = result at *
  obtain ⟨outcome, stop⟩ := result
  cases outcome with
  | ok _ =>
    dsimp only
    rw [run_read_bind]
    by_cases hstop : stop = input.bytes.length
    · simp [hstop]
    · simp [hstop]
  | err error => simp
  | panic site => exact absurd rfl (hsafe site stop)

/-- A map with an array in it; a reserved byte; an array that ends too early. -/
example :
    [[0x81, 0xa1, 0x6b, 0x92, 0x01, 0xc0], [0xc1], [0x92, 0x01]].map
      (fun bytes => ((validateStructure bytes).run 0).1) =
    [.ok (), .err (decodeError "reserved MessagePack marker"),
      .err (decodeError "truncated MessagePack value")] := by decide +kernel

/-! ## What `rmp_serde` writes

The formats of the messages here: texts below 256 bytes, numbers below `2 ^ 32` and structures
of fewer than 16 fields, written as maps. -/

def ascii (text : String) : Bytes := text.toList.map fun c => UInt8.ofNat c.toNat

def writeStr (text : String) : Bytes :=
  let bytes := ascii text
  if bytes.length < 32 then UInt8.ofNat (0xa0 + bytes.length) :: bytes
  else 0xd9 :: UInt8.ofNat bytes.length :: bytes

def writeUint (n : Nat) : Bytes :=
  if n < 0x80 then [UInt8.ofNat n]
  else if n < 0x100 then 0xcc :: toBytes 1 n
  else if n < 0x10000 then 0xcd :: toBytes 2 n
  else 0xce :: toBytes 4 n

def writeStruct (fields : List (String × Bytes)) : Bytes :=
  UInt8.ofNat (0x80 + fields.length) :: fields.flatMap fun field => writeStr field.1 ++ field.2

/-- A `RuntimeError` without evidence; its three optional fields are `None` here. -/
def writeBareError (error : RuntimeError) : Bytes :=
  writeStruct
    [("code", writeStr error.code), ("source", writeStr error.source),
      ("route", writeStr error.route), ("lost_capability", [0xc0]), ("recovery", [0xc0]),
      ("cause", [0xc0]), ("evidence", writeStruct [])]

end MessagePack

end MutsukiRuntime
