import Icn.AgoraNet.Models
import Icn.AgoraNet.Socket.Channels

/-!
# Notifications of transfers

An accepted transfer is announced on the channel of its federation and on one channel for each
side. The names of the latter are put together by a function of their own, and but for
federations it gives names that no socket is opened for.

A cooperative or a community hears of a transfer only if the id of one of its federations
happens to spell out the scope, and a transfer of a federation within itself is announced
twice on one channel: `notifiesParties_iff`.
-/

open Foundation

namespace Icn

namespace AgoraNet

/-- The channel of an entity; `none` for the kinds that the function does not list. -/
def getEntityChannel (entity : EntityRef) : Option String :=
  match entity.entityType with
  | .federation => some s!"federation:{entity.id}"
  | .cooperative => some s!"coop:{entity.id}"
  | .community => some s!"community:{entity.id}"
  | .user => some s!"user:{entity.id}"
  | _ => none

def getTransferNotificationChannels (transfer : Transfer) : Option (List String) := do
  let channels := [s!"federation:{transfer.federationId}"]
  let fromChannel ← getEntityChannel transfer.fromEntity
  let channels := channels ++ [fromChannel]
  let toChannel ← getEntityChannel transfer.toEntity
  return if !channels.contains toChannel then channels ++ [toChannel] else channels

def WebSocketState.announce {Event : Type} (state : WebSocketState Event) (channels : List String)
    (event : Event) : WebSocketState Event :=
  channels.foldl (fun state channel => state.broadcastToChannel channel event) state

theorem WebSocketState.sentOn_announce {Event : Type} (state : WebSocketState Event)
    (channels : List String) (event : Event) (channelName : String) :
    (state.announce channels event).sentOn channelName =
      state.sentOn channelName ++ List.replicate (channels.count channelName) event := by
  induction channels generalizing state with
  | nil => exact (List.append_nil _).symm
  | cons channel channels ih =>
      rw [announce, List.foldl_cons, ← announce, ih, sentOn_broadcastToChannel, List.append_assoc,
        ← List.replicate_add, ← List.count_append, List.singleton_append]

/-- The scope is that of the organisation. -/
def OrgScopeParams.Names (scope : OrgScopeParams) (entity : EntityRef) : Prop :=
  match entity.entityType with
  | .federation => scope = federation entity.id
  | .cooperative => ∃ fed, scope = cooperative fed entity.id
  | .community => ∃ fed coop, scope = community fed coop entity.id
  | _ => False

/-- Federations, cooperatives and communities. -/
def EntityRef.IsOrganisation (entity : EntityRef) : Prop :=
  entity.entityType = .federation ∨ entity.entityType = .cooperative ∨
    entity.entityType = .community

/-- Each side that is an organisation has a scope whose channel is announced on, and no channel
is announced on twice. -/
structure NotifiesParties (transfer : Transfer) (channels : List String) : Prop where
  parties : ∀ entity ∈ [transfer.fromEntity, transfer.toEntity], entity.IsOrganisation →
    ∃ scope : OrgScopeParams, scope.Valid ∧ scope.Names entity ∧ scope.channelName ∈ channels
  nodup : channels.Nodup

namespace Transfer

def federationIds (transfer : Transfer) : List String :=
  transfer.federationId ::
    ([transfer.fromEntity, transfer.toEntity].filter fun entity =>
      entity.entityType = .federation).map EntityRef.id

/-- The id of a federation spells out a scope of the entity. -/
def Spells (transfer : Transfer) (entity : EntityRef) : Prop :=
  match entity.entityType with
  | .cooperative => ∃ fed, fed ++ ":coop:" ++ entity.id ∈ transfer.federationIds
  | .community => ∃ fed coop,
      fed ++ ":coop:" ++ (coop ++ ":community:" ++ entity.id) ∈ transfer.federationIds
  | _ => True

end Transfer

open OrgScopeParams

theorem getEntityChannel_eq_federation_iff {entity : EntityRef} {fed : String} :
    getEntityChannel entity = some (federation fed).channelName ↔
      entity = ⟨.federation, fed⟩ := by
  have hother : ∀ first rest : String,
      first.toList.head? = some 'c' ∨ first.toList.head? = some 'u' →
        some (first ++ rest) ≠ some (federation fed).channelName := by
    intro first rest hfirst h
    have hhead := congrArg (fun name => name.toList.head?) (Option.some.inj h)
    rw [channelName_federation, String.toList_append, String.toList_append] at hhead
    rcases hfirst with hfirst | hfirst
    all_goals
      rw [List.head?_append, hfirst] at hhead
      cases hhead
  obtain ⟨kind, id⟩ := entity
  cases kind with
  | federation =>
      refine Iff.trans (b := id = fed) ?_ (by simp)
      rw [← channelName_federation_inj]
      exact Option.some_inj
  | cooperative => exact iff_of_false (hother "coop:" id (.inl rfl)) (by simp)
  | community => exact iff_of_false (hother "community:" id (.inl rfl)) (by simp)
  | user => exact iff_of_false (hother "user:" id (.inr rfl)) (by simp)
  | _ => exact iff_of_false (fun h => by cases h) (by simp)

variable {transfer : Transfer} {channels : List String}

theorem getTransferNotificationChannels_eq_some_iff :
    getTransferNotificationChannels transfer = some channels ↔
      ∃ fromChannel toChannel, getEntityChannel transfer.fromEntity = some fromChannel ∧
        getEntityChannel transfer.toEntity = some toChannel ∧
        channels = [(federation transfer.federationId).channelName, fromChannel] ++
          if toChannel ∈ [(federation transfer.federationId).channelName, fromChannel] then []
          else [toChannel] := by
  have hlast : ∀ (l : List String) (channel : String),
      (if !l.contains channel then l ++ [channel] else l) =
        l ++ if channel ∈ l then [] else [channel] := by
    intro l channel
    by_cases hmem : channel ∈ l <;> simp [hmem]
  constructor
  · intro h
    obtain ⟨fromChannel, hfrom, h⟩ := Option.bind_eq_some_iff.mp h
    obtain ⟨toChannel, hto, h⟩ := Option.bind_eq_some_iff.mp h
    exact ⟨fromChannel, toChannel, hfrom, hto,
      (Option.some.inj h).symm.trans (hlast _ toChannel)⟩
  · rintro ⟨fromChannel, toChannel, hfrom, hto, rfl⟩
    exact Option.bind_eq_some_iff.mpr ⟨fromChannel, hfrom, Option.bind_eq_some_iff.mpr
      ⟨toChannel, hto, congrArg some (hlast _ toChannel)⟩⟩

theorem mem_channels_iff (h : getTransferNotificationChannels transfer = some channels)
    {name : String} : name ∈ channels ↔ name = (federation transfer.federationId).channelName ∨
      ∃ entity ∈ [transfer.fromEntity, transfer.toEntity], getEntityChannel entity = some name := by
  obtain ⟨fromChannel, toChannel, hfrom, hto, rfl⟩ :=
    getTransferNotificationChannels_eq_some_iff.mp h
  have hsides : (∃ entity ∈ [transfer.fromEntity, transfer.toEntity],
      getEntityChannel entity = some name) ↔ name = fromChannel ∨ name = toChannel := by
    simp [hfrom, hto, eq_comm]
  rw [hsides]
  split
  · next hmem =>
    simp only [List.mem_cons, List.not_mem_nil, or_false, List.append_nil] at hmem ⊢
    grind
  · simp

theorem channelName_federation_mem_iff
    (h : getTransferNotificationChannels transfer = some channels) {fed : String} :
    (federation fed).channelName ∈ channels ↔ fed ∈ transfer.federationIds := by
  rw [mem_channels_iff h, channelName_federation_inj, Transfer.federationIds, List.mem_cons,
    List.mem_map]
  refine or_congr_right (exists_congr fun entity => ?_)
  rw [getEntityChannel_eq_federation_iff, List.mem_filter, and_assoc, decide_eq_true_eq]
  refine and_congr_right fun _ => ?_
  constructor
  · rintro rfl
    exact ⟨rfl, rfl⟩
  · rintro ⟨hkind, rfl⟩
    cases entity
    exact congrArg (EntityRef.mk · _) hkind

/-- Only the first side is announced on without a look at the channels that are there. -/
theorem nodup_iff (h : getTransferNotificationChannels transfer = some channels) :
    channels.Nodup ↔ transfer.fromEntity ≠ ⟨.federation, transfer.federationId⟩ := by
  obtain ⟨fromChannel, toChannel, hfrom, -, rfl⟩ :=
    getTransferNotificationChannels_eq_some_iff.mp h
  rw [ne_eq, ← getEntityChannel_eq_federation_iff, hfrom, Option.some_inj]
  split
  · simp [eq_comm]
  · next hmem =>
    simp only [List.mem_cons, List.not_mem_nil, or_false, not_or] at hmem
    grind

theorem exists_scope_iff (h : getTransferNotificationChannels transfer = some channels)
    {entity : EntityRef} (hmem : entity ∈ [transfer.fromEntity, transfer.toEntity])
    (horganisation : entity.IsOrganisation) :
    (∃ scope : OrgScopeParams, scope.Valid ∧ scope.Names entity ∧ scope.channelName ∈ channels) ↔
      transfer.Spells entity := by
  obtain ⟨kind, id⟩ := entity
  rcases horganisation with rfl | rfl | rfl
  · refine iff_of_true ⟨federation id, rfl, rfl, ?_⟩ trivial
    exact (mem_channels_iff h).mpr (.inr ⟨_, hmem, rfl⟩)
  · constructor
    · rintro ⟨_, -, ⟨fed, rfl⟩, hname⟩
      rw [channelName_cooperative, channelName_federation_mem_iff h] at hname
      exact ⟨fed, hname⟩
    · rintro ⟨fed, hspells⟩
      refine ⟨cooperative fed id, rfl, ⟨fed, rfl⟩, ?_⟩
      rw [channelName_cooperative, channelName_federation_mem_iff h]
      exact hspells
  · constructor
    · rintro ⟨_, -, ⟨fed, coop, rfl⟩, hname⟩
      rw [channelName_community, channelName_federation_mem_iff h] at hname
      exact ⟨fed, coop, hname⟩
    · rintro ⟨fed, coop, hspells⟩
      refine ⟨community fed coop id, rfl, ⟨fed, coop, rfl⟩, ?_⟩
      rw [channelName_community, channelName_federation_mem_iff h]
      exact hspells

/-- **Notifications.** The parties of a transfer are notified exactly if a federation does not
send within itself and the ids of the federations spell out the scopes of the other
organisations. -/
theorem notifiesParties_iff (transfer : Transfer) (channels : List String)
    (h : getTransferNotificationChannels transfer = some channels) :
    NotifiesParties transfer channels ↔
      transfer.fromEntity ≠ ⟨.federation, transfer.federationId⟩ ∧
        ∀ entity ∈ [transfer.fromEntity, transfer.toEntity], entity.IsOrganisation →
          transfer.Spells entity := by
  rw [← nodup_iff h]
  constructor
  · intro hnotifies
    exact ⟨hnotifies.nodup, fun entity hmem horganisation =>
      (exists_scope_iff h hmem horganisation).mp (hnotifies.parties entity hmem horganisation)⟩
  · rintro ⟨hnodup, hspells⟩
    exact ⟨fun entity hmem horganisation => (exists_scope_iff h hmem horganisation).mpr
      (hspells entity hmem horganisation), hnodup⟩

def federationPayment : Transfer where
  txId := "tx1"
  federationId := "federation1"
  fromEntity := ⟨.federation, "federation2"⟩
  toEntity := ⟨.user, "did:icn:user1"⟩
  amount := 10
  fee := 0
  initiator := "did:icn:operator"
  timestamp := 0
  memo := none
  metadata := none

theorem notifiesParties_federationPayment :
    NotifiesParties federationPayment
      ["federation:federation1", "federation:federation2", "user:did:icn:user1"] := by
  refine (notifiesParties_iff federationPayment _ (by decide)).mpr ⟨by decide, ?_⟩
  intro entity hmem horganisation
  rcases List.mem_cons.mp hmem with rfl | hmem
  · trivial
  · obtain rfl := List.mem_singleton.mp hmem
    trivial

def cooperativePayment : Transfer :=
  { federationPayment with
    federationId := "fed1"
    fromEntity := ⟨.cooperative, "coop1"⟩
    toEntity := ⟨.cooperative, "coop2"⟩ }

/-- Neither of the cooperatives hears of it. -/
theorem cooperativePayment_not_notifiesParties :
    getTransferNotificationChannels cooperativePayment =
        some ["federation:fed1", "coop:coop1", "coop:coop2"] ∧
      ¬ NotifiesParties cooperativePayment ["federation:fed1", "coop:coop1", "coop:coop2"] := by
  have hchannels : getTransferNotificationChannels cooperativePayment =
      some ["federation:fed1", "coop:coop1", "coop:coop2"] := by decide
  refine ⟨hchannels, fun h => ?_⟩
  obtain ⟨fed, hspells⟩ := (exists_scope_iff hchannels (by decide) (.inr (.inl rfl))).mp
    (h.parties ⟨.cooperative, "coop1"⟩ (by decide) (.inr (.inl rfl)))
  exact not_spellsCooperative_fed1 ⟨fed, "coop1", (List.mem_singleton.mp hspells).symm⟩

end AgoraNet

end Icn
