import Icn.Foundation.Codec.JsonParse

/-!
# Reading values without tags

An enumeration without tags is read by the first of its variants that takes the value,
and a record is read from an object or from an array of its fields in order.

A reader that reads the values inside a value by itself is a step made recursive
(`byDepth`). It satisfies its equation when a step looks only inside (`byDepth_eq`).
-/

namespace Foundation

namespace Codec

namespace Json

variable {ε α β : Type}

def readBool : Json → Read ε Bool
  | .bool value => .ok value
  | _ => .error (.invalidType "a boolean")

def firstVariant (message : String) (json : Json) : List (Json → Read ε α) → Read ε α
  | [] => .error (.malformed message)
  | read :: reads =>
      match read json with
      | .ok value => .ok value
      | .error _ => firstVariant message json reads

section FirstVariant

variable {message : String} {json : Json} {read : Json → Read ε α} {reads : List (Json → Read ε α)}

theorem firstVariant_ok {value : α} (h : read json = .ok value) :
    firstVariant message json (read :: reads) = .ok value := by
  rw [firstVariant, h]

theorem firstVariant_error (h : ∃ e, read json = .error e) :
    firstVariant message json (read :: reads) = firstVariant message json reads := by
  obtain ⟨e, he⟩ := h
  rw [firstVariant, he]

theorem firstVariant_congr {reads' : List (Json → Read ε α)}
    (h : List.Forall₂ (fun read read' => read json = read' json) reads reads') :
    firstVariant message json reads = firstVariant message json reads' := by
  induction h with
  | nil => rfl
  | cons hread _ ih => rw [firstVariant, firstVariant, hread, ih]

end FirstVariant

/-! ### Looking only inside -/

/-- Two readers read the values inside a value alike. -/
def AgreeInside (json : Json) (read read' : Json → Read ε α) : Prop :=
  ∀ item : Json, item.depth < json.depth → read item = read' item

theorem depth_lt_of_mem {items : List Json} {item : Json} (h : item ∈ items) :
    item.depth < (Json.array items).depth := by
  rw [depth, Nat.lt_succ_iff]
  exact depthItems_le_iff.mp le_rfl item h

theorem depth_lt_of_mem_entries {entries : List (String × Json)} {entry : String × Json}
    (h : entry ∈ entries) : entry.2.depth < (Json.object entries).depth := by
  rw [depth, Nat.lt_succ_iff]
  exact depthEntries_le_iff.mp le_rfl entry h

theorem mapM_congr {f g : Json → Read ε α} {items : List Json}
    (h : ∀ item ∈ items, f item = g item) : items.mapM f = items.mapM g := by
  induction items with
  | nil => rfl
  | cons item items ih =>
      rw [List.forall_mem_cons] at h
      rw [List.mapM_cons, List.mapM_cons, h.1, ih h.2]

theorem foldlM_congr {σ : Type} {f g : σ → String × Json → Read ε σ}
    {entries : List (String × Json)} (h : ∀ entry ∈ entries, ∀ s, f s entry = g s entry) (s : σ) :
    entries.foldlM f s = entries.foldlM g s := by
  induction entries generalizing s with
  | nil => rfl
  | cons entry entries ih =>
      rw [List.forall_mem_cons] at h
      rw [List.foldlM_cons, List.foldlM_cons, h.1]
      exact congrArg _ (funext fun s => ih h.2 s)

theorem AgreeInside.of_depth_le {read read' : Json → Read ε α} {item json : Json}
    (h : AgreeInside json read read') (hdepth : item.depth ≤ json.depth) :
    AgreeInside item read read' :=
  fun inner hinner => h inner (hinner.trans_le hdepth)

theorem AgreeInside.readList {read read' : Json → Read ε α} {json : Json}
    (h : AgreeInside json read read') : readList read json = readList read' json := by
  cases json with
  | array items => exact mapM_congr fun item hitem => h item (depth_lt_of_mem hitem)
  | null => rfl
  | bool value => rfl
  | number value => rfl
  | string value => rfl
  | object entries => rfl

theorem readField_congr {field : String} {slot : Option α} {read read' : Json → Read ε α}
    {json : Json} (h : read json = read' json) :
    readField field slot read json = readField field slot read' json := by
  cases slot with
  | none => rw [readField, readField, h]
  | some value => rfl

/-! ### Records -/

def readRecord {σ : Type} (expected : String) (visitEntry : σ → String × Json → Read ε σ)
    (start : σ) (finish : σ → Read ε α) (fromItems : List Json → Read ε α) : Json → Read ε α
  | .object entries => do
      let fields ← entries.foldlM visitEntry start
      finish fields
  | .array items => fromItems items
  | _ => .error (.invalidType expected)

theorem readRecord_congr {σ : Type} {expected : String}
    {visitEntry visitEntry' : σ → String × Json → Read ε σ} {start : σ} {finish : σ → Read ε α}
    {fromItems fromItems' : List Json → Read ε α} {json : Json}
    (hvisit : ∀ entry : String × Json, entry.2.depth < json.depth →
      ∀ fields, visitEntry fields entry = visitEntry' fields entry)
    (hitems : ∀ items : List Json, (∀ item ∈ items, item.depth < json.depth) →
      fromItems items = fromItems' items) :
    readRecord expected visitEntry start finish fromItems json =
      readRecord expected visitEntry' start finish fromItems' json := by
  cases json with
  | object entries =>
      rw [readRecord, readRecord,
        foldlM_congr fun entry hentry => hvisit entry (depth_lt_of_mem_entries hentry)]
  | array items => exact hitems items fun item hitem => depth_lt_of_mem hitem
  | null => rfl
  | bool value => rfl
  | number value => rfl
  | string value => rfl

/-! ### Recursive readers -/

section ByDepth

variable (step : (Json → Read ε α) → Json → Read ε α)

def readWithin : ℕ → Json → Read ε α
  | 0 => step fun _ => .error (.malformed "recursion limit exceeded")
  | n + 1 => step (readWithin n)

/-- A step that reads the values inside a value in the same way, made recursive. -/
def byDepth (json : Json) : Read ε α := readWithin step json.depth json

theorem readWithin_eq
    (hstep : ∀ read read' json, AgreeInside json read read' → step read json = step read' json)
    (n m : ℕ) {json : Json} (hn : json.depth ≤ n) (hm : json.depth ≤ m) :
    readWithin step n json = readWithin step m json := by
  induction n generalizing m json with
  | zero =>
      cases m with
      | zero => rfl
      | succ m => exact hstep _ _ json fun item hitem => absurd hitem (by omega)
  | succ n ih =>
      cases m with
      | zero => exact hstep _ _ json fun item hitem => absurd hitem (by omega)
      | succ m => exact hstep _ _ json fun item hitem => ih m (by omega) (by omega)

theorem byDepth_eq
    (hstep : ∀ read read' json, AgreeInside json read read' → step read json = step read' json)
    (json : Json) : byDepth step json = step (byDepth step) json := by
  have hunfold : byDepth step json = readWithin step (json.depth + 1) json :=
    readWithin_eq step hstep _ _ le_rfl (Nat.le_succ _)
  rw [hunfold]
  exact hstep _ _ json fun item hitem => readWithin_eq step hstep _ _ hitem.le le_rfl

end ByDepth

end Json

end Codec

end Foundation
