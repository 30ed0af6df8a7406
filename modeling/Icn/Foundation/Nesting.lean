import Mathlib.Data.List.Infix

/-!
# Words of brackets

The symbols of a word open and close brackets of several kinds, divide the bracket
that they stand in, or are plain. In a `Balanced` word every bracket is closed by
its own end, has at most one divider, and crosses no other.

`scan` reads a word from left to right with the brackets that are open; it stops at
a symbol that closes or divides a bracket which is not the last one to be opened.
A balanced word leaves the open brackets as they are, so none of its prefixes
closes a bracket that it did not open.
-/

namespace Foundation

namespace Nesting

/-- What a symbol does to the brackets of the kinds `κ`. -/
inductive Symbol (κ : Type*) where
  | plain
  | opening (kind : κ)
  | dividing (kind : κ)
  | closing (kind : κ)

variable {α κ : Type*} (symbol : α → Symbol κ)

inductive Balanced : List α → Prop
  | nil : Balanced []
  | plain {a : α} (h : symbol a = .plain) : Balanced [a]
  | append {word word' : List α} (h : Balanced word) (h' : Balanced word') :
      Balanced (word ++ word')
  | bracket {kind : κ} {a b : α} {word : List α} (ha : symbol a = .opening kind)
      (hb : symbol b = .closing kind) (h : Balanced word) : Balanced (a :: word ++ [b])
  | divided {kind : κ} {a b c : α} {word word' : List α} (ha : symbol a = .opening kind)
      (hb : symbol b = .dividing kind) (hc : symbol c = .closing kind)
      (h : Balanced word) (h' : Balanced word') : Balanced (a :: word ++ b :: word' ++ [c])

variable {symbol}

theorem Balanced.cons {a : α} {word : List α} (ha : symbol a = .plain)
    (h : Balanced symbol word) : Balanced symbol (a :: word) :=
  .append (.plain ha) h

theorem Balanced.of_forall_plain {word : List α} (h : ∀ a ∈ word, symbol a = .plain) :
    Balanced symbol word := by
  induction word with
  | nil => exact .nil
  | cons a word ih =>
      exact .cons (h a List.mem_cons_self) (ih fun b hb => h b (List.mem_cons_of_mem a hb))

theorem Balanced.flatMap {β : Type*} {f : β → List α} {l : List β}
    (h : ∀ b ∈ l, Balanced symbol (f b)) : Balanced symbol (l.flatMap f) := by
  induction l with
  | nil => exact .nil
  | cons b l ih =>
      rw [List.flatMap_cons]
      exact .append (h b List.mem_cons_self) (ih fun c hc => h c (List.mem_cons_of_mem b hc))

variable (symbol) [DecidableEq κ]

/-- The open brackets after a symbol, the last one first. A bracket that has been
divided is marked. -/
def next (brackets : List (κ × Bool)) (a : α) : Option (List (κ × Bool)) :=
  match symbol a, brackets with
  | .plain, brackets => some brackets
  | .opening kind, brackets => some ((kind, false) :: brackets)
  | .dividing kind, (kind', false) :: brackets =>
      if kind = kind' then some ((kind', true) :: brackets) else none
  | .dividing _, _ => none
  | .closing kind, (kind', _) :: brackets => if kind = kind' then some brackets else none
  | .closing _, [] => none

def scan (brackets : List (κ × Bool)) (word : List α) : Option (List (κ × Bool)) :=
  word.foldlM (next symbol) brackets

theorem scan_cons (brackets : List (κ × Bool)) (a : α) (word : List α) :
    scan symbol brackets (a :: word) =
      (next symbol brackets a).bind fun brackets => scan symbol brackets word :=
  List.foldlM_cons

theorem scan_append (brackets : List (κ × Bool)) (word word' : List α) :
    scan symbol brackets (word ++ word') =
      (scan symbol brackets word).bind fun brackets => scan symbol brackets word' :=
  List.foldlM_append

variable {symbol}

theorem Balanced.scan_eq {word : List α} (h : Balanced symbol word)
    (brackets : List (κ × Bool)) : scan symbol brackets word = some brackets := by
  induction h generalizing brackets with
  | nil => rfl
  | plain h => simp [scan, next, h]
  | append _ _ ih ih' => rw [scan_append, ih, Option.bind_some, ih']
  | @bracket kind a b word ha hb _ ih =>
      have hopen : next symbol brackets a = some ((kind, false) :: brackets) := by simp [next, ha]
      have hclose : scan symbol ((kind, false) :: brackets) [b] = some brackets := by
        simp [scan, next, hb]
      rw [List.cons_append, scan_cons, hopen, Option.bind_some, scan_append, ih,
        Option.bind_some, hclose]
  | @divided kind a b c word word' ha hb hc _ _ ih ih' =>
      have hopen : next symbol brackets a = some ((kind, false) :: brackets) := by simp [next, ha]
      have hdivide : next symbol ((kind, false) :: brackets) b =
          some ((kind, true) :: brackets) := by simp [next, hb]
      have hclose : scan symbol ((kind, true) :: brackets) [c] = some brackets := by
        simp [scan, next, hc]
      rw [scan_append, List.cons_append, scan_cons, hopen, Option.bind_some, scan_append, ih,
        Option.bind_some, scan_cons, hdivide, Option.bind_some, ih', Option.bind_some, hclose]

/-- No prefix of a balanced word closes a bracket that it did not open. -/
theorem Balanced.isSome_scan {word : List α} (h : Balanced symbol word) {before : List α}
    (hbefore : before <+: word) : (scan symbol [] before).isSome := by
  obtain ⟨after, rfl⟩ := hbefore
  have hscan := h.scan_eq []
  rw [scan_append] at hscan
  obtain ⟨brackets, hbrackets, -⟩ := Option.bind_eq_some_iff.mp hscan
  rw [hbrackets, Option.isSome_some]

end Nesting

end Foundation
