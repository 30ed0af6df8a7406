import Icn.Foundation.Codec.Bincode

/-!
# Formats

A `Format` writes values as bytes and reads them back off the front of a byte
string. Its law is an equivalence: a reader takes a value and leaves a rest
exactly if the bytes are what the writer makes of the value, followed by that
rest. So nothing is lost on the way out, and nothing but written values is
accepted on the way in. Values that cannot be written, such as texts that are
longer than their length field can say, are left out by `Fits`.

The formats of records are put together from those of their parts, and the law
comes along: `pair`, `list`, `option`, and `along` for a type that is written as
another. The last section has the formats of the bincode encoding.
-/

namespace Foundation

namespace Codec

/-- A way of writing values whose reader takes exactly what is written. -/
structure Format (α : Type*) where
  write : α → List UInt8
  Fits : α → Prop
  read : List UInt8 → Option (α × List UInt8)
  read_eq_some_iff : ∀ {bytes a rest},
    read bytes = some (a, rest) ↔ Fits a ∧ bytes = write a ++ rest

theorem ofLittleEndian_lt (bytes : List UInt8) : ofLittleEndian bytes < 256 ^ bytes.length := by
  induction bytes with
  | nil => exact Nat.one_pos
  | cons byte bytes ih =>
      have hbyte := byte.toNat_lt
      rw [ofLittleEndian, List.length_cons, pow_succ]
      omega

theorem littleEndian_ofLittleEndian (bytes : List UInt8) :
    littleEndian bytes.length (ofLittleEndian bytes) = bytes := by
  induction bytes with
  | nil => rfl
  | cons byte bytes ih =>
      have hbyte := byte.toNat_lt
      have hlow : (byte.toNat + 256 * ofLittleEndian bytes) % 256 = byte.toNat := by omega
      have hhigh : (byte.toNat + 256 * ofLittleEndian bytes) / 256 = ofLittleEndian bytes := by
        omega
      rw [ofLittleEndian, List.length_cons, littleEndian, hlow, hhigh, ih, UInt8.ofNat_toNat]

namespace Format

variable {α β : Type}

/-- What is written is read back, whatever follows it. -/
theorem read_write (f : Format α) {a : α} (h : f.Fits a) (rest : List UInt8) :
    f.read (f.write a ++ rest) = some (a, rest) :=
  f.read_eq_some_iff.mpr ⟨h, rfl⟩

/-- The value at the front of some bytes. What follows it is not looked at. -/
def decode (f : Format α) (bytes : List UInt8) : Option α := (f.read bytes).map Prod.fst

theorem decode_write (f : Format α) {a : α} (h : f.Fits a) (rest : List UInt8) :
    f.decode (f.write a ++ rest) = some a := by
  rw [decode, f.read_write h, Option.map_some]

/-- Bytes are decoded exactly if they begin with a written value. -/
theorem decode_eq_some_iff (f : Format α) {bytes : List UInt8} {a : α} :
    f.decode bytes = some a ↔ f.Fits a ∧ f.write a <+: bytes := by
  rw [decode, Option.map_eq_some_iff]
  constructor
  · rintro ⟨⟨a, rest⟩, hread, rfl⟩
    obtain ⟨hfits, rfl⟩ := f.read_eq_some_iff.mp hread
    exact ⟨hfits, List.prefix_append _ _⟩
  · rintro ⟨hfits, rest, rfl⟩
    exact ⟨(a, rest), f.read_write hfits rest, rfl⟩

theorem lookup_decode_iff (f : Format α) {bytes : Option (List UInt8)} {a : α} :
    bytes.bind f.decode = some a ↔ f.Fits a ∧ ∃ rest, bytes = some (f.write a ++ rest) := by
  rw [Option.bind_eq_some_iff]
  constructor
  · rintro ⟨bytes, rfl, hdecode⟩
    obtain ⟨hfits, rest, rfl⟩ := f.decode_eq_some_iff.mp hdecode
    exact ⟨hfits, rest, rfl⟩
  · rintro ⟨hfits, rest, rfl⟩
    exact ⟨_, rfl, f.decode_write hfits rest⟩

/-- Written values can be told apart, whatever follows them. -/
theorem write_append_inj (f : Format α) {a b : α} (ha : f.Fits a) (hb : f.Fits b)
    {rest rest' : List UInt8} (h : f.write a ++ rest = f.write b ++ rest') :
    a = b ∧ rest = rest' := by
  have hread := f.read_write ha rest
  rw [h, f.read_write hb] at hread
  obtain ⟨rfl, rfl⟩ := Prod.mk.inj (Option.some.inj hread)
  exact ⟨rfl, rfl⟩

def pair (f : Format α) (g : Format β) : Format (α × β) where
  write p := f.write p.1 ++ g.write p.2
  Fits p := f.Fits p.1 ∧ g.Fits p.2
  read bytes := do
    let (a, rest) ← f.read bytes
    let (b, rest) ← g.read rest
    return ((a, b), rest)
  read_eq_some_iff := by
    rintro bytes ⟨a, b⟩ rest
    simp only [bind, Option.bind_eq_some_iff, Prod.exists, pure, Option.some.injEq, Prod.mk.injEq]
    constructor
    · rintro ⟨a, middle, ha, b, rest, hb, ⟨rfl, rfl⟩, rfl⟩
      obtain ⟨hafits, rfl⟩ := f.read_eq_some_iff.mp ha
      obtain ⟨hbfits, rfl⟩ := g.read_eq_some_iff.mp hb
      exact ⟨⟨hafits, hbfits⟩, (List.append_assoc _ _ _).symm⟩
    · rintro ⟨⟨ha, hb⟩, rfl⟩
      rw [List.append_assoc]
      exact ⟨a, _, f.read_write ha _, b, rest, g.read_write hb rest, ⟨rfl, rfl⟩, rfl⟩

/-- A type written as another one. The reader refuses what no value is written as. -/
def along (f : Format α) (spell : β → α) (parse : α → Option β)
    (h : ∀ {a b}, parse a = some b ↔ spell b = a) : Format β where
  write b := f.write (spell b)
  Fits b := f.Fits (spell b)
  read bytes := do
    let (a, rest) ← f.read bytes
    let b ← parse a
    return (b, rest)
  read_eq_some_iff := by
    intro bytes b rest
    simp only [bind, Option.bind_eq_some_iff, Prod.exists, pure, Option.some.injEq, Prod.mk.injEq]
    constructor
    · rintro ⟨a, rest, hread, b, hb, rfl, rfl⟩
      obtain rfl := h.mp hb
      exact f.read_eq_some_iff.mp hread
    · intro hwrite
      exact ⟨spell b, rest, f.read_eq_some_iff.mpr hwrite, b, h.mpr rfl, rfl, rfl⟩

def record (f : Format α) (fields : β → α) (make : α → β) (hfields : ∀ a, fields (make a) = a)
    (hmake : ∀ b, make (fields b) = b) : Format β :=
  f.along fields (fun a => some (make a)) (by
    intro a b
    rw [Option.some.injEq]
    constructor
    · rintro rfl
      exact hfields a
    · rintro rfl
      exact hmake b)

def readMany (f : Format α) : ℕ → List UInt8 → Option (List α × List UInt8)
  | 0, bytes => some ([], bytes)
  | n + 1, bytes => do
      let (a, rest) ← f.read bytes
      let (l, rest) ← f.readMany n rest
      return (a :: l, rest)

theorem readMany_eq_some_iff (f : Format α) {n : ℕ} {bytes rest : List UInt8} {l : List α} :
    f.readMany n bytes = some (l, rest) ↔
      l.length = n ∧ (∀ a ∈ l, f.Fits a) ∧ bytes = l.flatMap f.write ++ rest := by
  induction n generalizing bytes l with
  | zero =>
      rw [readMany, Option.some.injEq, Prod.mk.injEq, List.length_eq_zero_iff]
      constructor
      · rintro ⟨rfl, rfl⟩
        exact ⟨rfl, by simp, rfl⟩
      · rintro ⟨rfl, -, rfl⟩
        exact ⟨rfl, rfl⟩
  | succ n ih =>
      simp only [readMany, bind, Option.bind_eq_some_iff, Prod.exists, pure, Option.some.injEq,
        Prod.mk.injEq]
      constructor
      · rintro ⟨a, middle, ha, l, rest, hl, rfl, rfl⟩
        obtain ⟨hfits, rfl⟩ := f.read_eq_some_iff.mp ha
        obtain ⟨hlength, hall, rfl⟩ := ih.mp hl
        exact ⟨congrArg Nat.succ hlength, List.forall_mem_cons.mpr ⟨hfits, hall⟩,
          by rw [List.flatMap_cons, List.append_assoc]⟩
      · rintro ⟨hlength, hall, rfl⟩
        cases l with
        | nil => cases hlength
        | cons a l =>
            obtain ⟨hfits, hall⟩ := List.forall_mem_cons.mp hall
            rw [List.flatMap_cons, List.append_assoc]
            exact ⟨a, _, f.read_write hfits _, l, rest, ih.mpr ⟨Nat.succ.inj hlength, hall, rfl⟩,
              rfl, rfl⟩

def number (width : ℕ) : Format ℕ where
  write := littleEndian width
  Fits n := n < 256 ^ width
  read bytes :=
    if bytes.length < width then none
    else some (ofLittleEndian (bytes.take width), bytes.drop width)
  read_eq_some_iff := by
    intro bytes n rest
    split_ifs with hshort
    · refine iff_of_false (by simp) ?_
      rintro ⟨-, rfl⟩
      rw [List.length_append, length_littleEndian] at hshort
      omega
    · rw [Option.some.injEq, Prod.mk.injEq]
      have hlength : (bytes.take width).length = width := by
        rw [List.length_take]
        omega
      constructor
      · rintro ⟨rfl, rfl⟩
        refine ⟨?_, ?_⟩
        · have hlt := ofLittleEndian_lt (bytes.take width)
          rwa [hlength] at hlt
        · have hwrite := littleEndian_ofLittleEndian (bytes.take width)
          rw [hlength] at hwrite
          rw [hwrite, List.take_append_drop]
      · rintro ⟨hn, rfl⟩
        rw [List.take_left' (length_littleEndian width n),
          List.drop_left' (length_littleEndian width n)]
        exact ⟨ofLittleEndian_littleEndian hn, rfl⟩

theorem number_write (width n : ℕ) : (number width).write n = littleEndian width n := rfl

def choice [DecidableEq α] (f : Format ℕ) (values : List α) (hnodup : values.Nodup)
    (hall : ∀ a, a ∈ values) : Format α :=
  f.along (fun a => values.idxOf a) (fun n => values[n]?) (by
    intro n a
    constructor
    · intro h
      obtain ⟨hn, rfl⟩ := List.getElem?_eq_some_iff.mp h
      exact hnodup.idxOf_getElem n hn
    · rintro rfl
      exact List.getElem?_idxOf (hall a))

end Format

namespace Bincode

open Format

variable {α : Type}

def wordFormat : Format UInt64 :=
  (number 8).along UInt64.toNat (fun n => if n < 2 ^ 64 then some (UInt64.ofNat n) else none) (by
    intro n x
    constructor
    · intro h
      split_ifs at h with hlt
      rw [← Option.some.inj h]
      exact UInt64.toNat_ofNat_of_lt' hlt
    · rintro rfl
      rw [if_pos x.toNat_lt, UInt64.ofNat_toNat])

def byteFormat : Format UInt8 where
  write byte := [byte]
  Fits _ := True
  read
    | [] => none
    | byte :: rest => some (byte, rest)
  read_eq_some_iff := by
    intro bytes byte rest
    cases bytes with
    | nil => simp
    | cons first bytes => simp

def listFormat (f : Format α) : Format (List α) where
  write l := littleEndian 8 l.length ++ l.flatMap f.write
  Fits l := l.length < 2 ^ 64 ∧ ∀ a ∈ l, f.Fits a
  read bytes :=
    match (number 8).read bytes with
    | none => none
    | some (n, rest) => f.readMany n rest
  read_eq_some_iff := by
    intro bytes l rest
    split
    · next h =>
        refine iff_of_false (by simp) ?_
        rintro ⟨⟨hlength, -⟩, rfl⟩
        rw [List.append_assoc, ← number_write, (number 8).read_write hlength] at h
        cases h
    · next n middle h =>
        obtain ⟨hn, rfl⟩ := (number 8).read_eq_some_iff.mp h
        rw [readMany_eq_some_iff]
        constructor
        · rintro ⟨rfl, hall, rfl⟩
          exact ⟨⟨hn, hall⟩, (List.append_assoc _ _ _).symm⟩
        · rintro ⟨⟨hlength, hall⟩, hbytes⟩
          rw [List.append_assoc] at hbytes
          obtain ⟨rfl, rfl⟩ := (number 8).write_append_inj hn hlength hbytes
          exact ⟨rfl, hall, rfl⟩

/-- A text as the list of its bytes. The reader refuses bytes that are no text. -/
def textFormat : Format String :=
  (listFormat byteFormat).along utf8 ofUtf8 ofUtf8_eq_some_iff

def optionFormat (f : Format α) : Format (Option α) where
  write := option f.write
  Fits value := ∀ a ∈ value, f.Fits a
  read
    | 0 :: bytes => some (none, bytes)
    | 1 :: bytes => (f.read bytes).map fun (a, rest) => (some a, rest)
    | _ => none
  read_eq_some_iff := by
    intro bytes value rest
    split
    · next bytes =>
        cases value with
        | none => simp [option]
        | some a => simp [option]
    · next bytes =>
        cases value with
        | none => simp [option]
        | some a => simp [option, f.read_eq_some_iff]
    · next hzero hone =>
        refine iff_of_false (by simp) ?_
        rintro ⟨-, rfl⟩
        cases value with
        | none => exact hzero rest rfl
        | some a => exact hone (f.write a ++ rest) rfl

def variantFormat [DecidableEq α] (variants : List α) (hnodup : variants.Nodup)
    (hall : ∀ a, a ∈ variants) : Format α :=
  (number 4).choice variants hnodup hall

theorem fits_variantFormat [DecidableEq α] {variants : List α} {hnodup : variants.Nodup}
    {hall : ∀ a, a ∈ variants} (h : variants.length ≤ 256 ^ 4) (a : α) :
    (variantFormat variants hnodup hall).Fits a :=
  (List.idxOf_lt_length_of_mem (hall a)).trans_le h

@[simp] theorem fits_wordFormat (x : UInt64) : wordFormat.Fits x := x.toNat_lt

theorem fits_textFormat_iff (s : String) : textFormat.Fits s ↔ (utf8 s).length < 2 ^ 64 :=
  and_iff_left fun _ _ => trivial

theorem write_wordFormat (x : UInt64) : wordFormat.write x = u64 x := rfl

theorem write_textFormat {s : String} (h : textFormat.Fits s) : textFormat.write s = text s := by
  have hlength : (UInt64.ofNat (utf8 s).length).toNat = (utf8 s).length :=
    UInt64.toNat_ofNat_of_lt' ((fits_textFormat_iff s).mp h)
  rw [text, u64, hlength]
  change littleEndian 8 (utf8 s).length ++ (utf8 s).flatMap (fun byte => [byte]) = _
  rw [List.flatMap_singleton']

end Bincode

end Codec

end Foundation
