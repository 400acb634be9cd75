import MuchCoolEfi.DevicePath.Vendor

/-! # The format of a vendor device path node

A well-formed vendor node is a header, a GUID and a payload of `k` bytes, with a length field that
counts all of it. `Contents k` is what it says, `image` the bytes that say it. The format is a
bijection: some bytes are the image of `c` exactly if they read as `c` and their length field is
right (`eq_image_iff`).

The accessors of a `Node` agree with the format. Where the bytes of a node are the image of `c`, they
give `c` back, the payload at `data()` with its length (`of_image`); and the nodes whose length field
counts the class correspond one to one to what they say (`says_iff`). -/

namespace MuchCoolEfi.DevicePath.Image

open MuchCoolEfi.Cxx.Storage MuchCoolEfi.Cxx.LittleEndian MuchCoolEfi.Cxx.Contiguous
open MuchCoolEfi.Core.Guids
open MuchCoolEfi.DevicePath.Vendor

/-! ### Where the parts of a node lie -/

variable {k : ℕ}

/-- The class, at the start of a node with a payload of `k` bytes. -/
def classIn (k : ℕ) : Field (20 + k) 20 := Field.first (Nat.le_add_right 20 k)

def headerIn (k : ℕ) : Field (20 + k) 4 := (classIn k).comp headerField
def typeIn (k : ℕ) : Field (20 + k) 1 := (headerIn k).comp typeField
def subtypeIn (k : ℕ) : Field (20 + k) 1 := (headerIn k).comp subtypeField
def lengthIn (k : ℕ) : Field (20 + k) 2 := (headerIn k).comp lengthField
def guidIn (k : ℕ) : Field (20 + k) 16 := (classIn k).comp vendorGuidField

/-- The payload, after the class. -/
def payloadIn (k : ℕ) : Field (20 + k) k := ⟨20, Nat.le_refl _⟩

@[simp] theorem typeIn_offset : (typeIn k).offset = 0 := rfl
@[simp] theorem subtypeIn_offset : (subtypeIn k).offset = 1 := rfl
@[simp] theorem lengthIn_offset : (lengthIn k).offset = 2 := rfl
@[simp] theorem guidIn_offset : (guidIn k).offset = 4 := rfl
@[simp] theorem payloadIn_offset : (payloadIn k).offset = 20 := rfl

/-- **The parts cover the node.** -/
theorem parts_cover {i : ℕ} (h : i < 20 + k) : (typeIn k).Mem i ∨ (subtypeIn k).Mem i ∨
    (lengthIn k).Mem i ∨ (guidIn k).Mem i ∨ (payloadIn k).Mem i := by
  simp only [Field.Mem, typeIn_offset, subtypeIn_offset, lengthIn_offset, guidIn_offset,
    payloadIn_offset]
  omega

/-! ### Contents and images -/

/-- What a vendor node with a payload of `k` bytes says. -/
@[ext] structure Contents (k : ℕ) where
  type : UInt8
  subtype : UInt8
  guid : Guid
  payload : Bytes k

/-- The bytes that say `c`, written into storage that held `held`. -/
def image (c : Contents k) (held : Bytes (20 + k)) : Bytes (20 + k) :=
  store (payloadIn k) c.payload <| store (guidIn k) c.guid.bytes <|
    store (lengthIn k) (encode 2 (20 + k)) <| store (subtypeIn k) #v[c.subtype] <|
      store (typeIn k) #v[c.type] held

/-- What some bytes say. -/
def contentsOf (b : Bytes (20 + k)) : Contents k where
  type := loadU8 (load (typeIn k) b)
  subtype := loadU8 (load (subtypeIn k) b)
  guid := ⟨load (guidIn k) b⟩
  payload := load (payloadIn k) b

section Loads

variable (c : Contents k) (held : Bytes (20 + k))

/-- A store to a later part leaves an earlier one alone. -/
theorem load_store_later {n j l : ℕ} {f : Field n j} {g : Field n l} (h : g.offset + l ≤ f.offset)
    (v : Bytes j) (s : Bytes n) : load g (store f v s) = load g s :=
  load_store_of_disjoint (Or.inl h) v s

theorem load_type_image : load (typeIn k) (image c held) = #v[c.type] := by
  unfold image
  rw [load_store_later (by simp), load_store_later (by simp), load_store_later (by simp),
    load_store_later (by simp), load_store]

theorem load_subtype_image : load (subtypeIn k) (image c held) = #v[c.subtype] := by
  unfold image
  rw [load_store_later (by simp), load_store_later (by simp), load_store_later (by simp),
    load_store]

theorem load_length_image : load (lengthIn k) (image c held) = encode 2 (20 + k) := by
  unfold image
  rw [load_store_later (by simp), load_store_later (by simp), load_store]

theorem load_guid_image : load (guidIn k) (image c held) = c.guid.bytes := by
  unfold image
  rw [load_store_later (by simp), load_store]

theorem load_payload_image : load (payloadIn k) (image c held) = c.payload :=
  load_store _ _ _

/-- **Reading an image gives the contents back.** -/
theorem contentsOf_image : contentsOf (image c held) = c := by
  unfold contentsOf
  rw [load_type_image, load_subtype_image, load_guid_image, load_payload_image]
  rfl

theorem length_image (hk : 20 + k < 2 ^ 16) :
    (loadU16 (load (lengthIn k) (image c held))).toNat = 20 + k := by
  rw [load_length_image, toNat_loadU16, decode_encode_of_lt hk]

theorem lengthOf_image (hk : 20 + k < 2 ^ 16) :
    (lengthOf (load (headerIn k) (image c held))).toNat = 20 + k := by
  unfold lengthOf
  rw [← load_comp]
  exact length_image c held hk

/-- **Some bytes are an image exactly if they read as it** and their length field counts them. What
the storage held before does not matter. -/
theorem eq_image_iff (hk : 20 + k < 2 ^ 16) {b : Bytes (20 + k)} :
    b = image c held ↔
      contentsOf b = c ∧ (loadU16 (load (lengthIn k) b)).toNat = 20 + k := by
  constructor
  · rintro rfl
    exact ⟨contentsOf_image c held, length_image c held hk⟩
  · rintro ⟨hc, hl⟩
    obtain ⟨h1, h2, h3, h4⟩ := Contents.ext_iff.mp (hc.trans (contentsOf_image c held).symm)
    refine ext_of_load fun i hi => ?_
    rcases parts_cover hi with hm | hm | hm | hm | hm
    · exact ⟨1, typeIn k, hm, loadU8_inj.mp h1⟩
    · exact ⟨1, subtypeIn k, hm, loadU8_inj.mp h2⟩
    · refine ⟨2, lengthIn k, hm, ?_⟩
      have hd : decode (load (lengthIn k) b) = 20 + k := by
        rw [← toNat_loadU16]
        exact hl
      rw [load_length_image, ← encode_decode (load (lengthIn k) b), hd]
    · exact ⟨16, guidIn k, hm, congrArg Guid.bytes h3⟩
    · exact ⟨k, payloadIn k, hm, h4⟩

end Loads

/-! ### Nodes hold images -/

section Nodes

variable (node : Node) {c : Contents k} {held : Bytes (20 + k)}

/-- `vendor_guid()`, where the buffer has the bytes of the class. -/
def vendorGuid (h : node.offset + 20 ≤ node.size) : Guid where
  bytes := load vendorGuidField (load ⟨node.offset, h⟩ node.buffer)

/-- The `k` bytes at an address in the buffer. -/
def bytesAt (p : Pointer) (k : ℕ)
    (h : node.base.toNat ≤ p.toNat ∧ p.toNat - node.base.toNat + k ≤ node.size) : Bytes k :=
  load ⟨p.toNat - node.base.toNat, h.2⟩ node.buffer

/-- `data()` is 20 bytes into the node, where the buffer has that many. -/
theorem toNat_data (h : node.offset + 20 ≤ node.size) :
    node.data.toNat = node.base.toNat + (node.offset + 20) := by
  have hs := node.in_space
  show (node.self + UInt64.ofNat vendorDevicePath.size).toNat = _
  rw [UInt64.toNat_add, node.toNat_self, vendorDevicePath_size, UInt64.toNat_ofNat',
    Nat.mod_eq_of_lt (a := 20) (by omega), Nat.mod_eq_of_lt (by omega), Nat.add_assoc]

/-- The header of a node is that of its bytes. -/
theorem load_header (h : node.offset + (20 + k) ≤ node.size) :
    load (headerIn k) (load ⟨node.offset, h⟩ node.buffer) = node.header := by
  rw [← load_comp]
  rfl

/-- **The accessors read what the image says**: every field, and the payload, which begins 20 bytes
into the node, where `data()` points, and has `data_length()` bytes. -/
theorem of_image (hk : 20 + k < 2 ^ 16) (h : node.offset + (20 + k) ≤ node.size)
    (hb : load ⟨node.offset, h⟩ node.buffer = image c held) :
    node.type = c.type ∧ node.subtype = c.subtype ∧ node.length.toNat = 20 + k ∧
      node.dataLength.toNat = k ∧
      load ⟨node.offset + 4, by omega⟩ node.buffer = c.guid.bytes ∧
      load ⟨node.offset + 20, by omega⟩ node.buffer = c.payload ∧
      vendorGuid node (by omega) = c.guid ∧
      ∃ hd, bytesAt node node.data k hd = c.payload := by
  have hh := load_header node h
  have hl : node.length.toNat = 20 + k := by
    unfold Node.length
    rw [← hh, hb]
    exact lengthOf_image c held hk
  have hg : load ⟨node.offset + 4, by omega⟩ node.buffer = c.guid.bytes := by
    have hg := load_guid_image c held
    rw [← hb, ← load_comp] at hg
    exact hg
  have hp : load ⟨node.offset + 20, by omega⟩ node.buffer = c.payload := by
    have hp := load_payload_image c held
    rw [← hb, ← load_comp] at hp
    exact hp
  refine ⟨?_, ?_, hl, ?_, hg, hp, ?_, ?_⟩
  · unfold Node.type
    rw [← hh, ← load_comp, hb]
    show loadU8 (load (typeIn k) _) = _
    rw [load_type_image]
    rfl
  · unfold Node.subtype
    rw [← hh, ← load_comp, hb]
    show loadU8 (load (subtypeIn k) _) = _
    rw [load_subtype_image]
    rfl
  · have hd := node.dataLength_iff.mpr (by rw [hl, vendorDevicePath_size]; omega)
    rw [vendorDevicePath_size] at hd
    omega
  · unfold vendorGuid
    rw [← load_comp]
    exact congrArg Guid.mk hg
  · have hd := toNat_data node (by omega)
    have he : node.data.toNat - node.base.toNat = node.offset + 20 := by omega
    refine ⟨by omega, ?_⟩
    unfold bytesAt
    rw [← hp]
    congr 2

/-- A node with a payload of two bytes, one byte into its buffer. -/
def twoBytes : Node where
  size := 23
  buffer := #v[0x7f, 1, 4, 22, 0, 9, 9, 9, 9, 9, 9, 9, 9, 9, 9, 9, 9, 9, 9, 9, 9, 0xaa, 0xbb]
  base := 0x1000
  in_space := by decide
  offset := 1
  header_fits := by decide
  fits := by decide

def twoBytesContents : Contents 2 where
  type := 1
  subtype := 4
  guid := ⟨.replicate 16 9⟩
  payload := #v[0xaa, 0xbb]

theorem of_image_two : twoBytes.type = 1 ∧ twoBytes.subtype = 4 ∧ twoBytes.length.toNat = 20 + 2 ∧
    twoBytes.dataLength.toNat = 2 ∧
    load ⟨1 + 4, by decide⟩ twoBytes.buffer = (.replicate 16 9 : Bytes 16) ∧
    load ⟨1 + 20, by decide⟩ twoBytes.buffer = (#v[0xaa, 0xbb] : Bytes 2) ∧
    vendorGuid twoBytes (by decide) = ⟨.replicate 16 9⟩ ∧
    ∃ hd, bytesAt twoBytes twoBytes.data 2 hd = (#v[0xaa, 0xbb] : Bytes 2) :=
  of_image twoBytes (c := twoBytesContents) (by decide) (by decide)
    (by decide : _ = image twoBytesContents (.replicate 22 0))

/-- The node says `x`: its length field counts a payload of so many bytes, and its bytes are an image. -/
def Says (x : Σ k, Contents k) : Prop :=
  node.length.toNat = 20 + x.1 ∧ ∃ h : node.offset + (20 + x.1) ≤ node.size,
    ∀ held, load ⟨node.offset, h⟩ node.buffer = image x.2 held

theorem exists_says (hn : 20 ≤ node.length.toNat) : ∃ x, Says node x := by
  have hfits : node.offset + node.length.toNat ≤ node.size := node.fits
  obtain ⟨k, hk⟩ := Nat.exists_eq_add_of_le hn
  have hlt : 20 + k < 2 ^ 16 := hk ▸ node.length.toNat_lt
  have h : node.offset + (20 + k) ≤ node.size := hk ▸ hfits
  refine ⟨⟨k, contentsOf (load ⟨node.offset, h⟩ node.buffer)⟩, hk, h, fun held => ?_⟩
  refine (eq_image_iff _ held hlt).mpr ⟨rfl, ?_⟩
  have hl : load (lengthIn k) (load ⟨node.offset, h⟩ node.buffer) = load lengthField node.header := by
    rw [← load_header node h]
    exact load_comp (headerIn k) lengthField _
  rw [hl]
  exact hk

variable {node} in
theorem says_unique : ∀ {x y : Σ k, Contents k}, Says node x → Says node y → x = y
  | ⟨k, c⟩, ⟨j, d⟩, ⟨hk, h, hc⟩, ⟨hj, h', hd⟩ => by
    obtain rfl : k = j := by
      change node.length.toNat = 20 + k at hk
      change node.length.toNat = 20 + j at hj
      omega
    have himage : image c (.replicate _ 0) = image d (.replicate _ 0) := (hc _).symm.trans (hd _)
    have hread := congrArg contentsOf himage
    rw [contentsOf_image, contentsOf_image] at hread
    rw [hread]

/-- The image at the start of a buffer of its size. -/
def nodeOf (c : Contents k) (hk : 20 + k < 2 ^ 16) : Node where
  size := 20 + k
  buffer := image c (.replicate (20 + k) 0)
  base := 0
  in_space := by
    show 0 + (20 + k) < 2 ^ 64
    omega
  offset := 0
  header_fits := by omega
  fits := Nat.le_of_eq ((Nat.zero_add _).trans (lengthOf_image c _ hk))

theorem says_nodeOf (c : Contents k) (hk : 20 + k < 2 ^ 16) : Says (nodeOf c hk) ⟨k, c⟩ := by
  have h : (nodeOf c hk).offset + (20 + k) ≤ (nodeOf c hk).size := Nat.le_of_eq (Nat.zero_add _)
  have hb : load ⟨(nodeOf c hk).offset, h⟩ (nodeOf c hk).buffer = image c (.replicate (20 + k) 0) :=
    load_whole _
  have hr := (eq_image_iff c (.replicate (20 + k) 0) hk).mp hb
  exact ⟨lengthOf_image c _ hk, h, fun held => (eq_image_iff c held hk).mpr hr⟩

/-- As many bytes as the length field counts. -/
def nodeBytes : Σ n, Bytes n := ⟨node.length.toNat, load ⟨node.offset, node.fits⟩ node.buffer⟩

variable {node} in
theorem nodeBytes_eq : ∀ {x : Σ k, Contents k}, Says node x →
    nodeBytes node = ⟨20 + x.1, image x.2 (.replicate _ 0)⟩
  | ⟨k, c⟩, ⟨hl, h, hc⟩ => by
    have hbytes : ∀ (n : ℕ) (hn : n = 20 + k) (hf : node.offset + n ≤ node.size),
        (⟨n, load ⟨node.offset, hf⟩ node.buffer⟩ : Σ n, Bytes n) =
          ⟨20 + k, image c (.replicate _ 0)⟩ := by
      rintro _ rfl hf
      rw [← hc]
    exact hbytes _ hl node.fits

/-- **Nodes and what they say correspond one to one**: the nodes that say something, and then one thing,
are those whose length field counts the class; nodes that say the same have the same bytes; and all is
said that a 16-bit length can count. -/
theorem says_iff :
    (∀ node : Node, (∃! x, Says node x) ↔ 20 ≤ node.length.toNat) ∧
      (∀ (node node' : Node) (x : Σ k, Contents k), Says node x → Says node' x →
        nodeBytes node = nodeBytes node') ∧
      ∀ x : Σ k, Contents k, (∃ node, Says node x) ↔ 20 + x.1 < 2 ^ 16 := by
  refine ⟨fun node => ⟨?_, fun hn => ?_⟩, fun node node' x h h' => ?_,
    fun x => ⟨?_, fun hk => ⟨_, says_nodeOf x.2 hk⟩⟩⟩
  · rintro ⟨x, ⟨hl, -⟩, -⟩
    omega
  · obtain ⟨x, hx⟩ := exists_says node hn
    exact ⟨x, hx, fun y hy => says_unique hy hx⟩
  · rw [nodeBytes_eq h, nodeBytes_eq h']
  · rintro ⟨node, hl, -⟩
    rw [← hl]
    exact node.length.toNat_lt

end Nodes

end MuchCoolEfi.DevicePath.Image
