import Mathlib.Data.List.Pairwise
import Mathlib.Logic.Function.Basic
import Mathlib.Logic.Relation

/-!
# Parties that exchange messages

Parties run the same code. An event changes the state of one of them and makes it send
messages; an event may be the arrival of a message. The network is the messages sent so
far: any of them may arrive at any party, at any time, any number of times or never. Others
than the parties may send messages too, as far as the surroundings allow.

`Inductive` is the rule for what holds of every party and of every message: it may rest on
what has been sent. `WriteOnce` is the rule for decisions: a party that marks what it has
decided, and decides nothing that is marked, has sent one message about it at most.
-/

namespace Foundation

namespace Network

/-- The code of a party, and the message that arrives with an event. -/
structure Party (σ ε μ : Type*) where
  step : σ → ε → σ × List μ
  arrival : ε → Option μ

/-- The states of the parties and the messages sent so far. -/
structure Net (ι σ μ : Type*) where
  parties : ι → σ
  sent : List μ

/-- The events that may happen at a party, and the messages that others may send. -/
structure Surroundings (ι ε μ : Type*) where
  may : ι → ε → Prop
  outside : μ → Prop

variable {ι σ ε μ : Type*} [DecidableEq ι]

/-- One step of the network. -/
inductive Step (P : Party σ ε μ) (S : Surroundings ι ε μ) : Net ι σ μ → Net ι σ μ → Prop
  | act {net : Net ι σ μ} {i : ι} {event : ε} (hmay : S.may i event)
      (harrival : ∀ m ∈ P.arrival event, m ∈ net.sent) :
      Step P S net ⟨Function.update net.parties i (P.step (net.parties i) event).1,
        net.sent ++ (P.step (net.parties i) event).2⟩
  | inject {net : Net ι σ μ} {m : μ} (h : S.outside m) :
      Step P S net ⟨net.parties, net.sent ++ [m]⟩

def Reachable (P : Party σ ε μ) (S : Surroundings ι ε μ) : Net ι σ μ → Net ι σ μ → Prop :=
  Relation.ReflTransGen (Step P S)

def Net.start (parties : ι → σ) : Net ι σ μ := ⟨parties, []⟩

variable {P : Party σ ε μ} {S : Surroundings ι ε μ}

theorem Reachable.act {net net' : Net ι σ μ} (h : Reachable P S net net') (i : ι) (event : ε)
    (hmay : S.may i event) (harrival : ∀ m ∈ P.arrival event, m ∈ net'.sent) :
    Reachable P S net ⟨Function.update net'.parties i (P.step (net'.parties i) event).1,
      net'.sent ++ (P.step (net'.parties i) event).2⟩ :=
  Relation.ReflTransGen.tail h (.act hmay harrival)

theorem Reachable.inject {net net' : Net ι σ μ} (h : Reachable P S net net') (m : μ)
    (hm : S.outside m) : Reachable P S net ⟨net'.parties, net'.sent ++ [m]⟩ :=
  Relation.ReflTransGen.tail h (.inject hm)

theorem Reachable.mem_sent {net net' : Net ι σ μ} (h : Reachable P S net net') {m : μ}
    (hm : m ∈ net.sent) : m ∈ net'.sent := by
  induction h with
  | refl => exact hm
  | tail _ hstep ih => cases hstep <;> exact List.mem_append_left _ ih

theorem Reachable.party_of_kept {K : σ → Prop} (hkept : ∀ s event, K s → K (P.step s event).1)
    {net net' : Net ι σ μ} (h : Reachable P S net net') {i : ι} (hi : K (net.parties i)) :
    K (net'.parties i) := by
  induction h with
  | refl => exact hi
  | tail _ hstep ih =>
      cases hstep with
      | @act j event hmay harrival =>
          by_cases hj : i = j
          · subst hj
            simpa only [Function.update_self] using hkept _ event ih
          · simpa only [Function.update_of_ne hj] using ih
      | inject hm => exact ih

section Invariant

/-- What holds of a party and of a message, given what has been sent. -/
structure Inductive (P : Party σ ε μ) (S : Surroundings ι ε μ) (L : List μ → ι → σ → Prop)
    (M : List μ → μ → Prop) : Prop where
  party_mono : ∀ {sent more : List μ} {i s}, L sent i s → L (sent ++ more) i s
  message_mono : ∀ {sent more : List μ} {m}, M sent m → M (sent ++ more) m
  step : ∀ {sent i s event}, (∀ m ∈ sent, M sent m) → L sent i s → S.may i event →
    (∀ m ∈ P.arrival event, m ∈ sent) →
      L (sent ++ (P.step s event).2) i (P.step s event).1 ∧
        ∀ m ∈ (P.step s event).2, M (sent ++ (P.step s event).2) m
  inject : ∀ {sent m}, S.outside m → M (sent ++ [m]) m

variable {L : List μ → ι → σ → Prop} {M : List μ → μ → Prop} {net net' : Net ι σ μ}

/-- What holds of all parties and all messages. -/
def Holds (L : List μ → ι → σ → Prop) (M : List μ → μ → Prop) (net : Net ι σ μ) : Prop :=
  (∀ i, L net.sent i (net.parties i)) ∧ ∀ m ∈ net.sent, M net.sent m

theorem Inductive.holds_step (h : Inductive P S L M) (hnet : Holds L M net)
    (hstep : Step P S net net') : Holds L M net' := by
  obtain ⟨hparties, hsent⟩ := hnet
  cases hstep with
  | @act i event hmay harrival =>
      obtain ⟨hself, hnew⟩ := h.step hsent (hparties i) hmay harrival
      refine ⟨fun j => ?_, fun m hm => ?_⟩
      · by_cases hj : j = i
        · subst hj
          simpa only [Function.update_self] using hself
        · simpa only [Function.update_of_ne hj] using h.party_mono (hparties j)
      · exact (List.mem_append.mp hm).elim (fun hm => h.message_mono (hsent m hm)) (hnew m)
  | @inject m hm =>
      refine ⟨fun j => h.party_mono (hparties j), fun m' hm' => ?_⟩
      rcases List.mem_append.mp hm' with hm' | hm'
      · exact h.message_mono (hsent m' hm')
      · rw [List.mem_singleton.mp hm']
        exact h.inject hm

theorem Inductive.holds_of_reachable (h : Inductive P S L M) (hreach : Reachable P S net net')
    (hnet : Holds L M net) : Holds L M net' := by
  induction hreach with
  | refl => exact hnet
  | tail _ hstep ih => exact h.holds_step ih hstep

end Invariant

section Decisions

variable {κ : Type*}

/-- The messages by which a party decides a key, and the keys that a party has marked. A
party decides nothing that is marked, and it marks what it decides. -/
structure WriteOnce (P : Party σ ε μ) (S : Surroundings ι ε μ) (Self : ι → σ → Prop)
    (Decides : ι → κ → μ → Prop) (Marked : σ → κ → Prop) : Prop where
  self : ∀ {i s} event, Self i s → Self i (P.step s event).1
  kept : ∀ {s k} event, Marked s k → Marked (P.step s event).1 k
  own : ∀ {i s} event, Self i s → ∀ m ∈ (P.step s event).2, ∀ j k, Decides j k m →
    j = i ∧ ¬ Marked s k ∧ Marked (P.step s event).1 k
  apart : ∀ s event, (P.step s event).2.Pairwise fun m m' =>
    ∀ j k, Decides j k m → ¬ Decides j k m'
  outside : ∀ m, S.outside m → ∀ j k, ¬ Decides j k m

variable {Self : ι → σ → Prop} {Decides : ι → κ → μ → Prop} {Marked : σ → κ → Prop}
  {net net' : Net ι σ μ}

/-- No two messages decide one key, and what is decided is marked. -/
structure DecidedOnce (Self : ι → σ → Prop) (Decides : ι → κ → μ → Prop) (Marked : σ → κ → Prop)
    (net : Net ι σ μ) : Prop where
  self : ∀ i, Self i (net.parties i)
  apart : net.sent.Pairwise fun m m' => ∀ j k, Decides j k m → ¬ Decides j k m'
  marked : ∀ m ∈ net.sent, ∀ j k, Decides j k m → Marked (net.parties j) k

omit [DecidableEq ι] in
theorem decidedOnce_start {parties : ι → σ} (h : ∀ i, Self i (parties i)) :
    DecidedOnce Self Decides Marked (Net.start parties : Net ι σ μ) where
  self := h
  apart := .nil
  marked _ hm := nomatch hm

theorem WriteOnce.decidedOnce_step (h : WriteOnce P S Self Decides Marked)
    (hnet : DecidedOnce Self Decides Marked net) (hstep : Step P S net net') :
    DecidedOnce Self Decides Marked net' := by
  cases hstep with
  | @act i event hmay harrival =>
      have hown := h.own event (hnet.self i)
      refine ⟨fun j => ?_, ?_, fun m hm j k hdecides => ?_⟩
      · by_cases hj : j = i
        · subst hj
          simpa only [Function.update_self] using h.self event (hnet.self j)
        · simpa only [Function.update_of_ne hj] using hnet.self j
      · refine List.pairwise_append.mpr
          ⟨hnet.apart, h.apart _ _, fun m hm m' hm' j k hold hnew => ?_⟩
        obtain ⟨rfl, hfresh, -⟩ := hown m' hm' j k hnew
        exact hfresh (hnet.marked m hm j k hold)
      · rcases List.mem_append.mp hm with hm | hm
        · have hmarked := hnet.marked m hm j k hdecides
          by_cases hj : j = i
          · subst hj
            simpa only [Function.update_self] using h.kept event hmarked
          · simpa only [Function.update_of_ne hj] using hmarked
        · obtain ⟨rfl, -, hmarked⟩ := hown m hm j k hdecides
          simpa only [Function.update_self] using hmarked
  | @inject m hm =>
      refine ⟨hnet.self, ?_, fun m' hm' j k hdecides => ?_⟩
      · refine List.pairwise_append.mpr ⟨hnet.apart, List.pairwise_singleton _ _, ?_⟩
        intro m' _ m'' hm'' j k _ hnew
        rw [List.mem_singleton.mp hm''] at hnew
        exact h.outside m hm j k hnew
      · rcases List.mem_append.mp hm' with hm' | hm'
        · exact hnet.marked m' hm' j k hdecides
        · rw [List.mem_singleton.mp hm'] at hdecides
          exact absurd hdecides (h.outside m hm j k)

theorem WriteOnce.decidedOnce_of_reachable (h : WriteOnce P S Self Decides Marked)
    (hreach : Reachable P S net net') (hnet : DecidedOnce Self Decides Marked net) :
    DecidedOnce Self Decides Marked net' := by
  induction hreach with
  | refl => exact hnet
  | tail _ hstep ih => exact h.decidedOnce_step ih hstep

omit [DecidableEq ι] in
theorem DecidedOnce.eq_of_decides (h : DecidedOnce Self Decides Marked net) {m m' : μ}
    (hm : m ∈ net.sent) (hm' : m' ∈ net.sent) {i : ι} {k : κ} (hdecides : Decides i k m)
    (hdecides' : Decides i k m') : m = m' := by
  by_contra hne
  have hsymm : Std.Symm fun m m' : μ => ∀ j k, Decides j k m → ¬ Decides j k m' :=
    ⟨fun m m' hapart j k hnew hold => hapart j k hold hnew⟩
  exact h.apart.forall hm hm' hne i k hdecides hdecides'

end Decisions

end Network

end Foundation
