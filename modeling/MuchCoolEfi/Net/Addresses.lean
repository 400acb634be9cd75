import MuchCoolEfi.Cxx.Layout

/-! # Network addresses

The three address classes compare the bytes of a union. Their constructors initialise one member of
it, in storage that held something before.

For `Ipv4Address` and `Ipv6Address` every member covers the union, so the address is what the
constructor was given (`Ipv4Address.ofData_eq`, `Ipv6Address.operatorEq_ofBytes`). The member `mac`
of a `MacAddress` has 6 of 32 bytes: the constructor from a `Mac` keeps the other 26 as the storage
held them, where the assignment clears them first. `padded mac` is what the assignment leaves, and
the constructor leaves it exactly in storage whose tail is zero (`MacAddress.ofMac_eq_padded`). -/

namespace MuchCoolEfi.Net.Addresses

open MuchCoolEfi.Cxx.Storage MuchCoolEfi.Cxx.Layout

/-! ### MacAddress -/

/-- `MacAddress::Mac`. -/
abbrev Mac := Bytes 6

/-- The members of `data_`: all bytes, and the `Mac`. -/
def dataMembers : List TypeLayout := [array 32 uint8, array 6 uint8]

def bytesField : Field 32 32 := unionMember dataMembers ⟨0, by decide⟩

def macField : Field 32 6 := unionMember dataMembers ⟨1, by decide⟩

/-- The bytes of `data_` that are not of `mac`. -/
def tailField : Field 32 26 := Field.rest (by decide : 6 ≤ 32)

theorem bytesField_eq : bytesField = Field.whole := rfl

theorem tail_disjoint_mac : tailField.Disjoint macField := Or.inr (Nat.le_refl 6)

/-- The 26 bytes after a `Mac`, all zero. -/
def noTail : Bytes 26 := .replicate 26 0

structure MacAddress where
  data : Bytes 32
deriving DecidableEq

namespace MacAddress

/-- `MacAddress()`, which initialises `data_` as `{0}`. -/
def ofNothing (held : Bytes 32) : MacAddress := ⟨store bytesField (.replicate 32 0) held⟩

/-- `MacAddress(const std::array<uint8_t, 32>&)`. -/
def ofBytes (held bytes : Bytes 32) : MacAddress := ⟨store bytesField bytes held⟩

/-- `MacAddress(const Mac&)`. -/
def ofMac (held : Bytes 32) (mac : Mac) : MacAddress := ⟨store macField mac held⟩

/-- The four defaulted members, which copy the bytes of the union. -/
def copied (held : Bytes 32) (other : MacAddress) : MacAddress :=
  ⟨store bytesField other.data held⟩

def copyConstruct (held : Bytes 32) (other : MacAddress) : MacAddress := copied held other
def moveConstruct (held : Bytes 32) (other : MacAddress) : MacAddress := copied held other
def copyAssign (a other : MacAddress) : MacAddress := copied a.data other
def moveAssign (a other : MacAddress) : MacAddress := copied a.data other

/-- `operator=(const Mac&)`. -/
def assignMac (a : MacAddress) (mac : Mac) : MacAddress :=
  ⟨store macField mac (store bytesField (.replicate 32 0) a.data)⟩

/-- `operator==`. -/
def operatorEq (a mac : MacAddress) : Bool := a.data == mac.data

end MacAddress

/-- A `Mac` followed by zeros. -/
def padded (mac : Mac) : Bytes 32 := mac ++ noTail

theorem load_mac_padded (mac : Mac) : load macField (padded mac) = mac := by
  refine Vector.ext fun i hi => ?_
  have hn : macField.offset + i < 32 := by
    show 0 + i < 32
    omega
  have he : macField.offset + i = i := Nat.zero_add i
  rw [getElem_load _ _ hi hn]
  show (mac ++ noTail)[macField.offset + i] = mac[i]
  simp only [he]
  exact Vector.getElem_append_left hi

theorem load_tail_padded (mac : Mac) : load tailField (padded mac) = noTail := by
  refine Vector.ext fun i hi => ?_
  have hn : tailField.offset + i < 32 := by
    show 6 + i < 32
    omega
  have he : tailField.offset + i = 6 + i := rfl
  rw [getElem_load _ _ hi hn]
  show (mac ++ noTail)[tailField.offset + i] = noTail[i]
  simp only [he]
  rw [Vector.getElem_append_right (by omega) (by omega)]
  simp only [Nat.add_sub_cancel_left]

/-- Storage is a `Mac` and what follows it. -/
theorem eq_iff_mac_tail {s t : Bytes 32} :
    s = t ↔ load macField s = load macField t ∧ load tailField s = load tailField t :=
  eq_iff_first_rest (by decide : 6 ≤ 32)

theorem eq_padded_iff {s : Bytes 32} {mac : Mac} :
    s = padded mac ↔ load macField s = mac ∧ load tailField s = noTail := by
  rw [eq_iff_mac_tail, load_mac_padded, load_tail_padded]

theorem padded_inj {m₁ m₂ : Mac} : padded m₁ = padded m₂ ↔ m₁ = m₂ := by
  constructor
  · intro h
    rw [← load_mac_padded m₁, ← load_mac_padded m₂, h]
  · rintro rfl; rfl

namespace MacAddress

theorem operatorEq_iff {a b : MacAddress} : a.operatorEq b = true ↔ a.data = b.data :=
  beq_iff_eq

theorem load_mac_ofMac (held : Bytes 32) (mac : Mac) : load macField (ofMac held mac).data = mac :=
  load_store _ _ _

theorem load_tail_ofMac (held : Bytes 32) (mac : Mac) :
    load tailField (ofMac held mac).data = load tailField held :=
  load_store_of_disjoint tail_disjoint_mac _ _

/-- **The constructor from a `Mac` leaves it padded exactly in storage with no tail.** -/
theorem ofMac_eq_padded {held : Bytes 32} {mac : Mac} :
    (ofMac held mac).data = padded mac ↔ load tailField held = noTail := by
  rw [eq_padded_iff, load_mac_ofMac, load_tail_ofMac]
  exact ⟨fun h => h.2, fun h => ⟨rfl, h⟩⟩

/-- **The assignment from a `Mac` leaves it padded**, whatever the address was. -/
theorem assignMac_data (a : MacAddress) (mac : Mac) : (a.assignMac mac).data = padded mac := by
  have ht : load tailField (Vector.replicate 32 0 : Bytes 32) = noTail := by decide
  unfold assignMac
  rw [bytesField_eq, store_whole]
  exact ofMac_eq_padded.mpr ht

@[simp] theorem ofBytes_data (held bytes : Bytes 32) : (ofBytes held bytes).data = bytes :=
  store_whole _ _

@[simp] theorem copied_data (held : Bytes 32) (other : MacAddress) :
    (copied held other).data = other.data :=
  store_whole _ _

end MacAddress

/-! ### Ipv4Address and Ipv6Address -/

/-- The members of `s_`. -/
def ipv4Members : List TypeLayout := [uint8, uint8, uint8, uint8]

def data1Field : Field 4 1 := member none ipv4Members ⟨0, by decide⟩
def data2Field : Field 4 1 := member none ipv4Members ⟨1, by decide⟩
def data3Field : Field 4 1 := member none ipv4Members ⟨2, by decide⟩
def data4Field : Field 4 1 := member none ipv4Members ⟨3, by decide⟩

structure Ipv4Address where
  bytes : Bytes 4
deriving DecidableEq

namespace Ipv4Address

def ofBytes (held bytes : Bytes 4) : Ipv4Address := ⟨store Field.whole bytes held⟩

def ofData (held : Bytes 4) (data1 data2 data3 data4 : UInt8) : Ipv4Address :=
  ⟨store data4Field #v[data4] <| store data3Field #v[data3] <| store data2Field #v[data2] <|
    store data1Field #v[data1] held⟩

def operatorEq (a address : Ipv4Address) : Bool := a.bytes == address.bytes

/-- **The two constructors agree**, each in storage of its own. -/
theorem ofData_eq (held held' : Bytes 4) (a b c d : UInt8) :
    ofData held a b c d = ofBytes held' #v[a, b, c, d] := by
  unfold ofData ofBytes
  rw [store_whole]
  -- the four fields cover the storage, so each byte of it is one of the four stored
  rfl

theorem operatorEq_ofBytes {held held' b b' : Bytes 4} :
    (ofBytes held b).operatorEq (ofBytes held' b') = true ↔ b = b' := by
  unfold operatorEq ofBytes
  rw [store_whole, store_whole, beq_iff_eq]

end Ipv4Address

structure Ipv6Address where
  bytes : Bytes 16
deriving DecidableEq

namespace Ipv6Address

def ofBytes (held bytes : Bytes 16) : Ipv6Address := ⟨store Field.whole bytes held⟩

def operatorEq (a address : Ipv6Address) : Bool := a.bytes == address.bytes

theorem operatorEq_ofBytes {held held' b b' : Bytes 16} :
    (ofBytes held b).operatorEq (ofBytes held' b') = true ↔ b = b' := by
  unfold operatorEq ofBytes
  rw [store_whole, store_whole, beq_iff_eq]

end Ipv6Address

end MuchCoolEfi.Net.Addresses
