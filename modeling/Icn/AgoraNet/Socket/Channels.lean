import Icn.Foundation.Map.Finite
import Icn.Foundation.Run.Broadcast
import Icn.AgoraNet.Auth.Gates

/-!
# Channels of scopes

An event of a scope is sent on the channel of the scope, on the channels of the scopes above
it and on the global one. A channel is found by its name, and a name is put together from the
ids of the scope without escapes.

So the channel of a cooperative is also that of a federation with a longer id, and the global
scope, which is above itself, gets its events twice: `isolates_iff` says which scopes have a
channel of their own on which every event arrives once.
-/

open Foundation

namespace Icn

namespace AgoraNet

def maxChannelCapacity : ℕ := 100

structure WebSocketState (Event : Type) where
  channels : HashMap String (Broadcast.Channel Event)

namespace WebSocketState

variable {Event : Type}

def new : WebSocketState Event := ⟨∅⟩

def getOrCreateChannel (state : WebSocketState Event) (channelName : String) :
    Broadcast.Channel Event × WebSocketState Event :=
  let channel := (state.channels.lookup channelName).getD (.new maxChannelCapacity)
  (channel, ⟨state.channels.insert channelName channel⟩)

def broadcastToChannel (state : WebSocketState Event) (channelName : String) (event : Event) :
    WebSocketState Event :=
  let (channel, state) := state.getOrCreateChannel channelName
  ⟨state.channels.insert channelName (channel.send event)⟩

def broadcastEvent (state : WebSocketState Event)
    (federationId coopId communityId : Option String) (event : Event) : WebSocketState Event :=
  let state := state.broadcastToChannel (buildChannelName federationId coopId communityId) event
  let state :=
    if communityId.isSome && coopId.isSome then
      state.broadcastToChannel (buildChannelName federationId coopId none) event
    else state
  let state :=
    if coopId.isSome && federationId.isSome then
      state.broadcastToChannel (buildChannelName federationId none none) event
    else state
  state.broadcastToChannel "global" event

def sentOn (state : WebSocketState Event) (channelName : String) : List Event :=
  ((state.channels.lookup channelName).map Broadcast.Channel.sent).getD []

/-- The receiver of a client that opens a socket for a channel, and the state after that. -/
def subscribe (state : WebSocketState Event) (channelName : String) :
    Broadcast.Receiver × WebSocketState Event :=
  let (channel, state) := state.getOrCreateChannel channelName
  (channel.subscribe, state)

theorem sentOn_broadcastToChannel (state : WebSocketState Event) (channelName other : String)
    (event : Event) : (state.broadcastToChannel channelName event).sentOn other =
      state.sentOn other ++ List.replicate ([channelName].count other) event := by
  simp only [broadcastToChannel, getOrCreateChannel, sentOn, Finmap.insert_insert]
  rw [HashMap.lookup_insert_eq_ite]
  by_cases h : other = channelName
  · subst h
    rw [if_pos rfl, List.count_singleton_self]
    cases state.channels.lookup other with
    | none => rfl
    | some channel => rfl
  · rw [if_neg h, List.count_eq_zero_of_not_mem (fun hmem => h (List.mem_singleton.mp hmem))]
    exact (List.append_nil _).symm

@[simp] theorem sentOn_subscribe (state : WebSocketState Event) (channelName other : String) :
    (state.subscribe channelName).2.sentOn other = state.sentOn other := by
  simp only [subscribe, getOrCreateChannel, sentOn]
  rw [HashMap.lookup_insert_eq_ite]
  by_cases h : other = channelName
  · subst h
    rw [if_pos rfl]
    cases state.channels.lookup other with
    | none => rfl
    | some channel => rfl
  · rw [if_neg h]

theorem subscribe_fst (state : WebSocketState Event) (channelName : String) :
    (state.subscribe channelName).1 = (state.sentOn channelName).length := by
  simp only [subscribe, getOrCreateChannel, sentOn]
  cases state.channels.lookup channelName with
  | none => rfl
  | some channel => rfl

end WebSocketState

namespace OrgScopeParams

/-- The socket endpoint takes the scope. -/
def Valid (scope : OrgScopeParams) : Prop :=
  validateOrgScopeHierarchy
    (⟨scope.federationId, scope.coopId, scope.communityId, none⟩ : WebSocketParams String) = none

def channelName (scope : OrgScopeParams) : String :=
  buildChannelName scope.federationId scope.coopId scope.communityId

def global : OrgScopeParams := ⟨none, none, none⟩

def federation (fed : String) : OrgScopeParams := ⟨some fed, none, none⟩

def cooperative (fed coop : String) : OrgScopeParams := ⟨some fed, some coop, none⟩

def community (fed coop comm : String) : OrgScopeParams := ⟨some fed, some coop, some comm⟩

theorem valid_iff (scope : OrgScopeParams) : scope.Valid ↔
    scope = global ∨ (∃ fed, scope = federation fed) ∨ (∃ fed coop, scope = cooperative fed coop) ∨
      ∃ fed coop comm, scope = community fed coop comm := by
  obtain ⟨fed, coop, comm⟩ := scope
  simp only [Valid, global, federation, cooperative, community]
  cases fed <;> cases coop <;> cases comm <;> simp [validateOrgScopeHierarchy]

def above : OrgScopeParams → List OrgScopeParams
  | ⟨some fed, some coop, some _⟩ => [cooperative fed coop, federation fed, global]
  | ⟨some fed, some _, none⟩ => [federation fed, global]
  | ⟨some _, none, _⟩ => [global]
  | ⟨none, _, _⟩ => []

def targets (scope : OrgScopeParams) : List String :=
  [scope.channelName] ++
    (if scope.communityId.isSome && scope.coopId.isSome then
      [buildChannelName scope.federationId scope.coopId none] else []) ++
    (if scope.coopId.isSome && scope.federationId.isSome then
      [buildChannelName scope.federationId none none] else []) ++ ["global"]

variable {Event : Type}

/-- What a client receives of an event of the scope if it has opened a socket for a channel
before. -/
def received (scope : OrgScopeParams) (event : Event) (state : WebSocketState Event)
    (channelName : String) : List Event :=
  (((state.subscribe channelName).2.broadcastEvent scope.federationId scope.coopId
    scope.communityId event).sentOn channelName).drop (state.subscribe channelName).1

theorem sentOn_broadcastEvent (scope : OrgScopeParams) (event : Event)
    (state : WebSocketState Event) (channelName : String) :
    (state.broadcastEvent scope.federationId scope.coopId scope.communityId event).sentOn
        channelName =
      state.sentOn channelName ++ List.replicate (scope.targets.count channelName) event := by
  have hif : ∀ (c : Bool) (state : WebSocketState Event) (other : String),
      (if c then state.broadcastToChannel other event else state).sentOn channelName =
        state.sentOn channelName ++
          List.replicate ((if c then [other] else []).count channelName) event := by
    intro c state other
    cases c with
    | false => exact (List.append_nil _).symm
    | true => exact state.sentOn_broadcastToChannel other channelName event
  simp only [WebSocketState.broadcastEvent, WebSocketState.sentOn_broadcastToChannel, hif, targets,
    List.count_append, List.replicate_add, List.append_assoc]
  rfl

theorem received_eq (scope : OrgScopeParams) (event : Event) (state : WebSocketState Event)
    (channelName : String) : scope.received event state channelName =
      List.replicate (scope.targets.count channelName) event := by
  rw [received, sentOn_broadcastEvent, WebSocketState.sentOn_subscribe,
    WebSocketState.subscribe_fst, List.drop_left]

/-- The scope has a channel of its own. A client of the scope or of a scope above it receives
an event once, and a client of another one does not receive it. -/
structure Isolates (scope : OrgScopeParams) (event : Event) : Prop where
  injective : ∀ other : OrgScopeParams, other.Valid → other.channelName = scope.channelName →
    other = scope
  own : ∀ state, scope.received event state scope.channelName = [event]
  above : ∀ state, ∀ other ∈ scope.above, scope.received event state other.channelName = [event]
  others : ∀ state, ∀ other : OrgScopeParams, other.Valid → other ≠ scope → other ∉ scope.above →
    scope.received event state other.channelName = []

/-- The id reads like that of a cooperative in a federation. -/
def SpellsCooperative (id : String) : Prop := ∃ fed coop, id = fed ++ ":coop:" ++ coop

theorem channelName_global : global.channelName = "global" := rfl

theorem channelName_federation (fed : String) :
    (federation fed).channelName = "federation:" ++ fed := rfl

theorem channelName_cooperative (fed coop : String) :
    (cooperative fed coop).channelName = (federation (fed ++ ":coop:" ++ coop)).channelName := by
  change "federation:" ++ fed ++ ":coop:" ++ coop = "federation:" ++ (fed ++ ":coop:" ++ coop)
  simp only [String.append_assoc]

theorem channelName_community (fed coop comm : String) :
    (community fed coop comm).channelName =
      (federation (fed ++ ":coop:" ++ (coop ++ ":community:" ++ comm))).channelName := by
  change "federation:" ++ fed ++ ":coop:" ++ coop ++ ":community:" ++ comm =
    "federation:" ++ (fed ++ ":coop:" ++ (coop ++ ":community:" ++ comm))
  simp only [String.append_assoc]

theorem channelName_federation_ne_global (fed : String) :
    (federation fed).channelName ≠ "global" := by
  intro h
  have hhead := congrArg (fun name => name.toList.head?) h
  rw [channelName_federation, String.toList_append] at hhead
  cases hhead

theorem channelName_federation_inj {fed fed' : String} :
    (federation fed).channelName = (federation fed').channelName ↔ fed = fed' :=
  String.append_right_inj "federation:"

/-- A federation shares its channel exactly if its id reads like that of a cooperative. -/
theorem eq_of_channelName_eq {fed : String} (hfed : ¬ SpellsCooperative fed)
    {other : OrgScopeParams} (hvalid : other.Valid)
    (h : other.channelName = (federation fed).channelName) : other = federation fed := by
  rcases (valid_iff other).mp hvalid with rfl | ⟨fed', rfl⟩ | ⟨fed', coop, rfl⟩ |
    ⟨fed', coop, comm, rfl⟩
  · exact absurd h.symm (channelName_federation_ne_global fed)
  · rw [channelName_federation_inj.mp h]
  · rw [channelName_cooperative, channelName_federation_inj] at h
    exact absurd ⟨fed', coop, h.symm⟩ hfed
  · rw [channelName_community, channelName_federation_inj] at h
    exact absurd ⟨fed', _, h.symm⟩ hfed

theorem targets_federation (fed : String) :
    (federation fed).targets = [(federation fed).channelName, "global"] := rfl

theorem isolates_federation {fed : String} (hfed : ¬ SpellsCooperative fed) (event : Event) :
    (federation fed).Isolates event where
  injective _ hvalid h := eq_of_channelName_eq hfed hvalid h
  own state := by
    rw [received_eq, targets_federation, List.count_cons_self,
      List.count_eq_zero_of_not_mem fun hmem => channelName_federation_ne_global fed
        (List.mem_singleton.mp hmem)]
    rfl
  above state other hmem := by
    obtain rfl : other = global := List.mem_singleton.mp hmem
    rw [received_eq, targets_federation, channelName_global,
      List.count_cons_of_ne (channelName_federation_ne_global fed)]
    rfl
  others state other hvalid hne hmem := by
    rw [received_eq, targets_federation, List.count_eq_zero_of_not_mem]
    · rfl
    · rw [List.mem_cons, List.mem_singleton]
      rintro (h | h)
      · exact hne (eq_of_channelName_eq hfed hvalid h)
      · refine hmem (List.mem_singleton.mpr ?_)
        rcases (valid_iff other).mp hvalid with rfl | ⟨fed', rfl⟩ | ⟨fed', coop, rfl⟩ |
          ⟨fed', coop, comm, rfl⟩
        · rfl
        · exact absurd h (channelName_federation_ne_global fed')
        · rw [channelName_cooperative] at h
          exact absurd h (channelName_federation_ne_global _)
        · rw [channelName_community] at h
          exact absurd h (channelName_federation_ne_global _)

/-- The global scope is sent its events twice. -/
theorem not_isolates_global (event : Event) : ¬ global.Isolates event := by
  intro h
  have htwice : global.targets.count global.channelName = 2 := by decide
  have hown := congrArg List.length (h.own .new)
  rw [received_eq, List.length_replicate, htwice, List.length_singleton] at hown
  exact absurd hown (by decide)

theorem not_isolates_of_channelName_eq {scope other : OrgScopeParams} (hvalid : other.Valid)
    (hname : other.channelName = scope.channelName) (hne : other ≠ scope) (event : Event) :
    ¬ scope.Isolates event :=
  fun h => hne (h.injective other hvalid hname)

theorem valid_federation (fed : String) : (federation fed).Valid := rfl

theorem valid_cooperative (fed coop : String) : (cooperative fed coop).Valid := rfl

/-- **Channels.** The scopes that have a channel of their own are the federations whose id does
not read like that of a cooperative. -/
theorem isolates_iff (scope : OrgScopeParams) (hvalid : scope.Valid) (event : Event) :
    scope.Isolates event ↔ ∃ fed, scope = federation fed ∧ ¬ SpellsCooperative fed := by
  constructor
  · intro h
    rcases (valid_iff scope).mp hvalid with rfl | ⟨fed, rfl⟩ | ⟨fed, coop, rfl⟩ |
      ⟨fed, coop, comm, rfl⟩
    · exact absurd h (not_isolates_global event)
    · refine ⟨fed, rfl, ?_⟩
      rintro ⟨fed', coop, rfl⟩
      exact not_isolates_of_channelName_eq (valid_cooperative fed' coop)
        (channelName_cooperative fed' coop)
        (fun heq => Option.some_ne_none _ (congrArg coopId heq)) event h
    · exact absurd h (not_isolates_of_channelName_eq (valid_federation _)
        (channelName_cooperative fed coop).symm
        (fun heq => Option.some_ne_none _ (congrArg coopId heq).symm) event)
    · exact absurd h (not_isolates_of_channelName_eq (valid_federation _)
        (channelName_community fed coop comm).symm
        (fun heq => Option.some_ne_none _ (congrArg coopId heq).symm) event)
  · rintro ⟨fed, rfl, hfed⟩
    exact isolates_federation hfed event

def pieces : OrgScopeParams → List String
  | ⟨some fed, some coop, some comm⟩ => ["federation", fed, "coop", coop, "community", comm]
  | ⟨some fed, some coop, none⟩ => ["federation", fed, "coop", coop]
  | ⟨some fed, none, none⟩ => ["federation", fed]
  | _ => ["global"]

/-- No id of the scope has a colon. -/
def Plain (scope : OrgScopeParams) : Prop := ∀ piece ∈ scope.pieces, ':' ∉ piece.toList

theorem toList_channelName {scope : OrgScopeParams} (hvalid : scope.Valid) :
    scope.channelName.toList = [':'].intercalate (scope.pieces.map String.toList) := by
  rcases (valid_iff scope).mp hvalid with rfl | ⟨fed, rfl⟩ | ⟨fed, coop, rfl⟩ |
    ⟨fed, coop, comm, rfl⟩
  · rfl
  · rw [channelName_federation]
    simp [federation, pieces, List.intercalate]
  · rw [channelName_cooperative, channelName_federation]
    simp [cooperative, pieces, List.intercalate]
  · rw [channelName_community, channelName_federation]
    simp [community, pieces, List.intercalate]

theorem pieces_inj {scope other : OrgScopeParams} (hscope : scope.Valid) (hother : other.Valid)
    (h : scope.pieces = other.pieces) : scope = other := by
  rcases (valid_iff scope).mp hscope with rfl | ⟨fed, rfl⟩ | ⟨fed, coop, rfl⟩ |
    ⟨fed, coop, comm, rfl⟩ <;>
  rcases (valid_iff other).mp hother with rfl | ⟨fed', rfl⟩ | ⟨fed', coop', rfl⟩ |
    ⟨fed', coop', comm', rfl⟩ <;>
  simp_all [pieces, global, federation, cooperative, community]

/-- Ids without colons are told apart by the names. -/
theorem channelName_inj_of_plain {scope other : OrgScopeParams} (hscope : scope.Valid)
    (hother : other.Valid) (hplain : scope.Plain) (hplain' : other.Plain)
    (h : scope.channelName = other.channelName) : scope = other := by
  have hparts : ∀ {scope : OrgScopeParams}, scope.Valid → scope.Plain →
      scope.channelName.toList.splitOn ':' = scope.pieces.map String.toList := by
    intro scope hvalid hplain
    rw [toList_channelName hvalid]
    refine List.splitOn_intercalate ':' ?_ ?_
    · simpa [Plain] using hplain
    · rcases (valid_iff scope).mp hvalid with rfl | ⟨fed, rfl⟩ | ⟨fed, coop, rfl⟩ |
        ⟨fed, coop, comm, rfl⟩ <;> exact List.cons_ne_nil _ _
  refine pieces_inj hscope hother (List.map_injective_iff.mpr (fun a b => String.toList_inj.mp) ?_)
  rw [← hparts hscope hplain, ← hparts hother hplain', h]

theorem not_spellsCooperative_fed1 : ¬ SpellsCooperative "fed1" := by
  rintro ⟨fed, coop, h⟩
  have hlength := congrArg String.length h
  rw [String.length_append, String.length_append] at hlength
  have hfour : "fed1".length = 4 := by decide
  have hsix : ":coop:".length = 6 := by decide
  omega

theorem isolates_fed1 : (federation "fed1").Isolates "TokenMinted" :=
  (isolates_iff (federation "fed1") (valid_federation "fed1") "TokenMinted").mpr
    ⟨"fed1", rfl, not_spellsCooperative_fed1⟩

/-- A cooperative and a federation that share a channel: a client of the federation receives
the events of the cooperative. A client of the global channel receives global events twice. -/
theorem coop1_not_isolates :
    (cooperative "fed1" "coop1").Valid ∧ (federation "fed1:coop:coop1").Valid ∧
      (cooperative "fed1" "coop1").channelName = (federation "fed1:coop:coop1").channelName ∧
      ¬ (cooperative "fed1" "coop1").Isolates "TokenMinted" ∧
      (cooperative "fed1" "coop1").received "TokenMinted" .new
          (federation "fed1:coop:coop1").channelName = ["TokenMinted"] ∧
      global.received "TokenMinted" .new global.channelName = ["TokenMinted", "TokenMinted"] := by
  have hname : (federation "fed1:coop:coop1").channelName =
      (cooperative "fed1" "coop1").channelName := by decide
  refine ⟨rfl, rfl, hname.symm, ?_, ?_, ?_⟩
  · exact not_isolates_of_channelName_eq (valid_federation _) hname
      (fun heq => Option.some_ne_none _ (congrArg coopId heq).symm) _
  · rw [received_eq]
    decide
  · rw [received_eq]
    decide

end OrgScopeParams

end AgoraNet

end Icn
