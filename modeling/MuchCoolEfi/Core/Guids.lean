import MuchCoolEfi.Cxx.Layout
import MuchCoolEfi.Cxx.LittleEndian

/-! # GUIDs

A `Guid` is a union of its 16 bytes and a structure of four fields of 4, 2, 2 and 8 bytes; two are
compared byte by byte. The constructor from fields writes the structure into storage that held
something before, the one from bytes writes the bytes. As the structure has no padding, both
determine all 16 bytes (`build_congr`), and comparing bytes is comparing fields
(`operatorEq_iff_fields`). -/

namespace MuchCoolEfi.Core.Guids

open MuchCoolEfi.Cxx.Storage MuchCoolEfi.Cxx.Layout MuchCoolEfi.Cxx.LittleEndian

/-! ### The layout -/

/-- The members of `struct_`; the last is the union `data4` of eight bytes and a word. -/
def structMembers : List TypeLayout :=
  [uint32, uint16, uint16, union [array 8 uint8, uint64]]

/-- `class Guid`: the bytes and the structure share their storage. -/
def guidLayout : TypeLayout := union [array 16 uint8, record none structMembers]

theorem guidLayout_size : guidLayout.size = 16 := rfl

def data1Field : Field 16 4 := member none structMembers ⟨0, by decide⟩
def data2Field : Field 16 2 := member none structMembers ⟨1, by decide⟩
def data3Field : Field 16 2 := member none structMembers ⟨2, by decide⟩
def data4Field : Field 16 8 := member none structMembers ⟨3, by decide⟩

@[simp] theorem data1Field_offset : data1Field.offset = 0 := rfl
@[simp] theorem data2Field_offset : data2Field.offset = 4 := rfl
@[simp] theorem data3Field_offset : data3Field.offset = 6 := rfl
@[simp] theorem data4Field_offset : data4Field.offset = 8 := rfl

theorem data1_disjoint_data2 : data1Field.Disjoint data2Field :=
  member_disjoint none structMembers (by decide)
theorem data1_disjoint_data3 : data1Field.Disjoint data3Field :=
  member_disjoint none structMembers (by decide)
theorem data1_disjoint_data4 : data1Field.Disjoint data4Field :=
  member_disjoint none structMembers (by decide)
theorem data2_disjoint_data3 : data2Field.Disjoint data3Field :=
  member_disjoint none structMembers (by decide)
theorem data2_disjoint_data4 : data2Field.Disjoint data4Field :=
  member_disjoint none structMembers (by decide)
theorem data3_disjoint_data4 : data3Field.Disjoint data4Field :=
  member_disjoint none structMembers (by decide)

/-- **The structure has no padding**: its fields cover the 16 bytes. -/
theorem fields_cover {i : ℕ} (h : i < 16) :
    data1Field.Mem i ∨ data2Field.Mem i ∨ data3Field.Mem i ∨ data4Field.Mem i := by
  simp only [Field.Mem, data1Field_offset, data2Field_offset, data3Field_offset, data4Field_offset]
  omega

/-! ### The class -/

structure Guid where
  bytes : Bytes 16
deriving DecidableEq

/-- The values of `data1`, `data2`, `data3` and of the eight bytes of `data4`. -/
@[ext] structure Fields where
  data1 : UInt32
  data2 : UInt16
  data3 : UInt16
  data4 : Bytes 8
deriving DecidableEq

/-- `Guid(const Bytes&)`, in storage that held `held`. -/
def ofBytes (held bytes : Bytes 16) : Guid := ⟨store Field.whole bytes held⟩

/-- `Guid(data1, data2, data3, data4)`, in storage that held `held`. -/
def ofFields (held : Bytes 16) (f : Fields) : Guid :=
  ⟨store data4Field f.data4 <| store data3Field (encode 2 f.data3.toNat) <|
    store data2Field (encode 2 f.data2.toNat) <| store data1Field (encode 4 f.data1.toNat) held⟩

/-- `operator==`. -/
def Guid.operatorEq (g guid : Guid) : Bool := g.bytes == guid.bytes

/-- What `struct_` reads. -/
def Guid.fields (g : Guid) : Fields where
  data1 := loadU32 (load data1Field g.bytes)
  data2 := loadU16 (load data2Field g.bytes)
  data3 := loadU16 (load data3Field g.bytes)
  data4 := load data4Field g.bytes

theorem operatorEq_iff {g h : Guid} : g.operatorEq h = true ↔ g = h := by
  cases g; cases h
  simp [Guid.operatorEq]

/-- **Equal fields mean equal bytes.** -/
theorem fields_inj {g h : Guid} : g.fields = h.fields ↔ g = h := by
  constructor
  · intro he
    obtain ⟨h1, h2, h3, h4⟩ := Fields.ext_iff.mp he
    have hb : g.bytes = h.bytes := by
      refine ext_of_load fun i hi => ?_
      rcases fields_cover hi with hm | hm | hm | hm
      · exact ⟨4, data1Field, hm, loadU32_inj.mp h1⟩
      · exact ⟨2, data2Field, hm, loadU16_inj.mp h2⟩
      · exact ⟨2, data3Field, hm, loadU16_inj.mp h3⟩
      · exact ⟨8, data4Field, hm, h4⟩
    cases g; cases h
    exact congrArg Guid.mk hb
  · rintro rfl; rfl

/-- **Comparing the bytes is comparing the four fields.** -/
theorem operatorEq_iff_fields {g h : Guid} : g.operatorEq h = true ↔ g.fields = h.fields := by
  rw [operatorEq_iff, fields_inj]

/-! ### The constructors -/

theorem fields_ofFields (held : Bytes 16) (f : Fields) : (ofFields held f).fields = f := by
  unfold Guid.fields ofFields
  refine Fields.ext ?_ ?_ ?_ ?_
  · simp only
    rw [load_store_of_disjoint data1_disjoint_data4, load_store_of_disjoint data1_disjoint_data3,
      load_store_of_disjoint data1_disjoint_data2, load_store, loadU32_encode]
  · simp only
    rw [load_store_of_disjoint data2_disjoint_data4, load_store_of_disjoint data2_disjoint_data3,
      load_store, loadU16_encode]
  · simp only
    rw [load_store_of_disjoint data3_disjoint_data4, load_store, loadU16_encode]
  · simp only [load_store]

/-- The fields of 16 bytes in little-endian order. -/
def littleEndianFields (b : Bytes 16) : Fields where
  data1 := UInt32.ofNat
    (b[0].toNat + 256 * (b[1].toNat + 256 * (b[2].toNat + 256 * b[3].toNat)))
  data2 := UInt16.ofNat (b[4].toNat + 256 * b[5].toNat)
  data3 := UInt16.ofNat (b[6].toNat + 256 * b[7].toNat)
  data4 := #v[b[8], b[9], b[10], b[11], b[12], b[13], b[14], b[15]]

theorem fields_ofBytes (held b : Bytes 16) : (ofBytes held b).fields = littleEndianFields b := by
  unfold Guid.fields ofBytes littleEndianFields
  rw [store_whole]
  refine Fields.ext ?_ ?_ ?_ ?_
  · simp [loadU32, decode_four, load, Field.index]
  · simp [loadU16, decode_two, load, Field.index]
  · simp [loadU16, decode_two, load, Field.index]
  · refine Vector.ext fun i hi => ?_
    simp only [load, Field.index, Vector.getElem_ofFn, data4Field_offset, Fin.getElem_fin]
    interval_cases i <;> rfl

/-- How a `Guid` is written down. -/
inductive Init where
  | bytes (b : Bytes 16)
  | fields (f : Fields)

/-- The `Guid` constructed in storage that held `held`. -/
def Init.build (held : Bytes 16) : Init → Guid
  | .bytes b => ofBytes held b
  | .fields f => ofFields held f

/-- The fields it stands for. -/
def Init.denoted : Init → Fields
  | .bytes b => littleEndianFields b
  | .fields f => f

theorem fields_build (held : Bytes 16) : ∀ i : Init, (i.build held).fields = i.denoted
  | .bytes b => fields_ofBytes held b
  | .fields f => fields_ofFields held f

/-- **What the storage held does not matter**, whichever constructor is used. -/
theorem build_congr {held held' : Bytes 16} {i j : Init} (h : i.denoted = j.denoted) :
    i.build held = j.build held' := by
  rw [← fields_inj, fields_build, fields_build, h]

theorem operatorEq_build {g : Guid} {held : Bytes 16} {i : Init} :
    g.operatorEq (i.build held) = true ↔ g.fields = i.denoted := by
  rw [operatorEq_iff_fields, fields_build]

end MuchCoolEfi.Core.Guids
