import Icn.Foundation.Map.Finite
import Icn.Foundation.Word.Machine
import Icn.AgoraNet.Auth.Claims

/-!
# Records of organisations

Receipts, balances and transactions may name a cooperative and a community. Five endpoints
list them or give their statistics, for the organisations that the query names, and ask the
token of the caller for access to these.

A caller sees the records that name an organisation it has access to. What an endpoint
answers depends on nothing else exactly when the query names an organisation, is refused, or
asks for a date that no instant has (`confined_iff`).
-/

open Foundation

namespace Icn

namespace AgoraNet

structure ExecutionReceiptSummary where
  cid : String
  executor : String
  resourceUsage : HashMap String UInt64
  timestamp : Timestamp
  coopId : Option String
  communityId : Option String
deriving DecidableEq

structure ExecutionReceiptDetail where
  summary : ExecutionReceiptSummary
  taskCid : String
  anchoredCids : List String
  signature : String
deriving DecidableEq

structure TokenBalance where
  did : String
  balance : UInt64
  coopId : Option String
  communityId : Option String
deriving DecidableEq, Repr

structure TokenTransaction where
  id : String
  fromDid : String
  toDid : String
  amount : UInt64
  operation : String
  timestamp : Timestamp
  fromCoopId : Option String
  fromCommunityId : Option String
  toCoopId : Option String
  toCommunityId : Option String
deriving DecidableEq, Repr

structure ReceiptStats where
  totalReceipts : UInt64
  avgCpuUsage : UInt64
  avgMemoryUsage : UInt64
  avgStorageUsage : UInt64
  receiptsByExecutor : HashMap String UInt64
deriving DecidableEq

structure TokenStats where
  totalMinted : UInt64
  totalBurnt : UInt64
  activeAccounts : UInt64
  dailyVolume : Option UInt64
deriving DecidableEq, Repr

/-- The query of the receipts. The endpoint that asks for access reads neither the limit nor
the offset. -/
structure GetReceiptsQuery where
  date : Option String
  executor : Option String
  coopId : Option String
  communityId : Option String
  limit : Option UInt32
  offset : Option UInt32
deriving DecidableEq, Repr

structure GetTokenBalancesQuery where
  account : Option String
  coopId : Option String
  communityId : Option String
  limit : Option UInt32
  offset : Option UInt32
deriving DecidableEq, Repr

structure GetTokenTransactionsQuery where
  date : Option String
  account : Option String
  coopId : Option String
  communityId : Option String
  limit : Option UInt32
  offset : Option UInt32
deriving DecidableEq, Repr

/-- The queries of the statistics ask for a scope and nothing else. -/
abbrev GetReceiptStatsQuery := OrgScopeParams

abbrev GetTokenStatsQuery := OrgScopeParams

structure ReceiptStatsResponse where
  stats : ReceiptStats
  coopId : Option String
  communityId : Option String
deriving DecidableEq

structure TokenStatsResponse where
  stats : TokenStats
  coopId : Option String
  communityId : Option String
deriving DecidableEq, Repr

structure OrgRecords where
  receipts : List ExecutionReceiptDetail
  tokenBalances : List TokenBalance
  tokenTransactions : List TokenTransaction

def ofOrg (wanted actual : Option String) : Bool :=
  wanted.all fun id => decide (actual = some id)

def ofEitherOrg (wanted sender recipient : Option String) : Bool :=
  wanted.all fun id => decide (sender = some id) || decide (recipient = some id)

def onDate (day : Timestamp → String) (wanted : Option String) (timestamp : Timestamp) : Bool :=
  wanted.all fun date => date.toList.isPrefixOf (day timestamp).toList

namespace OrgRecords

section

variable (day : Timestamp → String) (store : OrgRecords)

def filterReceipts (params : GetReceiptsQuery) : List ExecutionReceiptSummary :=
  (store.receipts.filter fun r =>
    params.executor.all (fun executor => decide (r.summary.executor = executor)) &&
      onDate day params.date r.summary.timestamp && ofOrg params.coopId r.summary.coopId &&
        ofOrg params.communityId r.summary.communityId).map ExecutionReceiptDetail.summary

def filterTokenBalances (params : GetTokenBalancesQuery) : List TokenBalance :=
  store.tokenBalances.filter fun b =>
    params.account.all (fun account => decide (b.did = account)) &&
      ofOrg params.coopId b.coopId && ofOrg params.communityId b.communityId

def filterTokenTransactions (params : GetTokenTransactionsQuery) : List TokenTransaction :=
  store.tokenTransactions.filter fun tx =>
    params.account.all (fun account =>
        decide (tx.fromDid = account) || decide (tx.toDid = account)) &&
      onDate day params.date tx.timestamp && ofEitherOrg params.coopId tx.fromCoopId tx.toCoopId &&
        ofEitherOrg params.communityId tx.fromCommunityId tx.toCommunityId

end

section

variable (mode : Overflow) (store : OrgRecords) (coopId communityId : Option String)

def countExecutor (counts : HashMap String UInt64) (executor : String) :
    Option (HashMap String UInt64) :=
  (mode.add ((counts.lookup executor).getD 0) 1).map fun count => counts.insert executor count

def filteredReceipts : List ExecutionReceiptDetail :=
  store.receipts.filter fun r =>
    ofOrg coopId r.summary.coopId && ofOrg communityId r.summary.communityId

def filteredTransactions : List TokenTransaction :=
  store.tokenTransactions.filter fun tx =>
    ofEitherOrg coopId tx.fromCoopId tx.toCoopId &&
      ofEitherOrg communityId tx.fromCommunityId tx.toCommunityId

/-- Statistics of the receipts of a scope. The sums may stop the program. -/
def getReceiptStats : Option ReceiptStats := do
  let filteredReceipts := store.filteredReceipts coopId communityId
  let totalReceipts : UInt64 := .ofNat filteredReceipts.length
  let usage := fun (resource : String) => mode.sum (filteredReceipts.map fun receipt =>
    (receipt.summary.resourceUsage.lookup resource).getD 0)
  let average := fun (total : UInt64) => if totalReceipts > 0 then total / totalReceipts else 0
  let receiptsByExecutor ← filteredReceipts.foldlM
    (fun counts receipt => countExecutor mode counts receipt.summary.executor) ∅
  let totalCpu ← usage "CPU"
  let totalMemory ← usage "Memory"
  let totalStorage ← usage "Storage"
  return {
    totalReceipts
    avgCpuUsage := average totalCpu
    avgMemoryUsage := average totalMemory
    avgStorageUsage := average totalStorage
    receiptsByExecutor
  }

/-- Statistics of the transactions of a scope. The sums may stop the program. -/
def getTokenStats : Option TokenStats := do
  let filteredTransactions := store.filteredTransactions coopId communityId
  let amounts := fun (operation : String) => (filteredTransactions.filter fun tx =>
    decide (tx.operation = operation)).map TokenTransaction.amount
  let totalMinted ← mode.sum (amounts "mint")
  let totalBurnt ← mode.sum (amounts "burn")
  let dailyVolume ← mode.sum (filteredTransactions.map TokenTransaction.amount)
  let activeAccounts := (filteredTransactions.flatMap fun tx => [tx.fromDid, tx.toDid]).toFinset
  return {
    totalMinted
    totalBurnt
    activeAccounts := .ofNat activeAccounts.card
    dailyVolume := some dailyVolume
  }

end

end OrgRecords

section Endpoints

variable (auth : AuthenticatedRequest)

def requireAccess {α : Type} (params : OrgScopeParams) (answer : Except AuthError α) :
    Except AuthError α :=
  if !auth.claims.hasOrgScopeAccess params.federationId params.coopId params.communityId then
    .error .unauthorizedOrgAccess
  else answer

variable (mode : Overflow) (day : Timestamp → String) (store : OrgRecords)

def getReceiptsAuthorized (params : GetReceiptsQuery) :
    Except AuthError (List ExecutionReceiptSummary) :=
  requireAccess auth ⟨none, params.coopId, params.communityId⟩
    (.ok (store.filterReceipts day params))

def getTokenBalancesAuthorized (params : GetTokenBalancesQuery) :
    Except AuthError (List TokenBalance) :=
  requireAccess auth ⟨none, params.coopId, params.communityId⟩
    (.ok (store.filterTokenBalances params))

/-- For a cooperative alone the role of its operator is asked for, too. -/
def getTokenTransactionsAuthorized (params : GetTokenTransactionsQuery) :
    Except AuthError (List TokenTransaction) :=
  requireAccess auth ⟨none, params.coopId, params.communityId⟩
    (if params.communityId.isNone && params.coopId.any (!auth.claims.hasCoopOperatorRole ·) then
      .error .notCoopOperator
    else .ok (store.filterTokenTransactions day params))

/-- None is a stopped program. -/
def getReceiptStatsAuthorized (params : GetReceiptStatsQuery) :
    Except AuthError (Option ReceiptStatsResponse) :=
  requireAccess auth params (.ok ((store.getReceiptStats mode params.coopId
    params.communityId).map fun stats => ⟨stats, params.coopId, params.communityId⟩))

/-- None is a stopped program. -/
def getTokenStatsAuthorized (params : GetTokenStatsQuery) :
    Except AuthError (Option TokenStatsResponse) :=
  requireAccess auth params (.ok ((store.getTokenStats mode params.coopId
    params.communityId).map fun stats => ⟨stats, params.coopId, params.communityId⟩))

end Endpoints

inductive ScopeQuery where
  | receipts (params : GetReceiptsQuery)
  | tokenBalances (params : GetTokenBalancesQuery)
  | tokenTransactions (params : GetTokenTransactionsQuery)
  | receiptStats (params : GetReceiptStatsQuery)
  | tokenStats (params : GetTokenStatsQuery)
deriving DecidableEq, Repr

inductive ScopeAnswer where
  | receipts (answer : Except AuthError (List ExecutionReceiptSummary))
  | tokenBalances (answer : Except AuthError (List TokenBalance))
  | tokenTransactions (answer : Except AuthError (List TokenTransaction))
  | receiptStats (answer : Except AuthError (Option ReceiptStatsResponse))
  | tokenStats (answer : Except AuthError (Option TokenStatsResponse))

namespace ScopeQuery

def answer (mode : Overflow) (day : Timestamp → String) (auth : AuthenticatedRequest)
    (store : OrgRecords) : ScopeQuery → ScopeAnswer
  | receipts params => .receipts (getReceiptsAuthorized auth day store params)
  | tokenBalances params => .tokenBalances (getTokenBalancesAuthorized auth store params)
  | tokenTransactions params =>
      .tokenTransactions (getTokenTransactionsAuthorized auth day store params)
  | receiptStats params => .receiptStats (getReceiptStatsAuthorized auth mode store params)
  | tokenStats params => .tokenStats (getTokenStatsAuthorized auth mode store params)

def scope : ScopeQuery → OrgScopeParams
  | receipts params => ⟨none, params.coopId, params.communityId⟩
  | tokenBalances params => ⟨none, params.coopId, params.communityId⟩
  | tokenTransactions params => ⟨none, params.coopId, params.communityId⟩
  | receiptStats params => params
  | tokenStats params => params

def date : ScopeQuery → Option String
  | receipts params => params.date
  | tokenTransactions params => params.date
  | _ => none

/-- The caller has access to the scope. -/
def Allowed (claims : ScopeClaims) (query : ScopeQuery) : Prop :=
  claims.hasOrgScopeAccess query.scope.federationId query.scope.coopId query.scope.communityId =
    true

/-- The query names a cooperative or a community. -/
def NamesOrg (query : ScopeQuery) : Prop :=
  query.scope.coopId.isSome ∨ query.scope.communityId.isSome

end ScopeQuery

def ScopeClaims.sees (claims : ScopeClaims) (coopId communityId : Option String) : Bool :=
  coopId.any claims.hasCoopAccess || communityId.any claims.hasCommunityAccess

def OrgRecords.seenBy (claims : ScopeClaims) (store : OrgRecords) : OrgRecords where
  receipts := store.receipts.filter fun r => claims.sees r.summary.coopId r.summary.communityId
  tokenBalances := store.tokenBalances.filter fun b => claims.sees b.coopId b.communityId
  tokenTransactions := store.tokenTransactions.filter fun tx =>
    claims.sees tx.fromCoopId tx.fromCommunityId || claims.sees tx.toCoopId tx.toCommunityId

/-- Whatever the records are, the answer is a matter of those that the caller sees. -/
def ScopeQuery.Confined (mode : Overflow) (day : Timestamp → String)
    (auth : AuthenticatedRequest) (query : ScopeQuery) : Prop :=
  ∀ store store' : OrgRecords, store.seenBy auth.claims = store'.seenBy auth.claims →
    query.answer mode day auth store = query.answer mode day auth store'

section Confinement

variable {claims : ScopeClaims} {params : OrgScopeParams}

/-- The caller has access to what is asked for and something is. -/
def Granted (claims : ScopeClaims) (params : OrgScopeParams) : Prop :=
  claims.hasOrgScopeAccess params.federationId params.coopId params.communityId = true ∧
    (params.coopId.isSome ∨ params.communityId.isSome)

theorem Granted.named (h : Granted claims params) :
    (∃ id, params.coopId = some id ∧ claims.hasCoopAccess id = true) ∨
      ∃ id, params.communityId = some id ∧ claims.hasCommunityAccess id = true := by
  obtain ⟨haccess, hnames⟩ := h
  rw [ScopeClaims.hasOrgScopeAccess, Bool.and_eq_true, Bool.and_eq_true] at haccess
  rcases hnames with hcoop | hcommunity
  · obtain ⟨id, hid⟩ := Option.isSome_iff_exists.mp hcoop
    rw [hid] at haccess
    exact .inl ⟨id, hid, haccess.1.2⟩
  · obtain ⟨id, hid⟩ := Option.isSome_iff_exists.mp hcommunity
    rw [hid] at haccess
    exact .inr ⟨id, hid, haccess.2⟩

theorem Granted.sees (h : Granted claims params) {coopId communityId : Option String}
    (hcoop : ofOrg params.coopId coopId = true)
    (hcommunity : ofOrg params.communityId communityId = true) :
    claims.sees coopId communityId = true := by
  rcases h.named with ⟨id, hid, haccess⟩ | ⟨id, hid, haccess⟩
  · simp [ofOrg, hid] at hcoop
    simp [ScopeClaims.sees, hcoop, haccess]
  · simp [ofOrg, hid] at hcommunity
    simp [ScopeClaims.sees, hcommunity, haccess]

theorem Granted.sees_either (h : Granted claims params)
    {fromCoopId fromCommunityId toCoopId toCommunityId : Option String}
    (hcoop : ofEitherOrg params.coopId fromCoopId toCoopId = true)
    (hcommunity : ofEitherOrg params.communityId fromCommunityId toCommunityId = true) :
    (claims.sees fromCoopId fromCommunityId || claims.sees toCoopId toCommunityId) = true := by
  rcases h.named with ⟨id, hid, haccess⟩ | ⟨id, hid, haccess⟩
  · simp only [ofEitherOrg, hid, Option.all_some, Bool.or_eq_true, decide_eq_true_eq] at hcoop
    rcases hcoop with rfl | rfl <;> simp [ScopeClaims.sees, haccess]
  · simp only [ofEitherOrg, hid, Option.all_some, Bool.or_eq_true, decide_eq_true_eq] at hcommunity
    rcases hcommunity with rfl | rfl <;> simp [ScopeClaims.sees, haccess]

theorem filter_filter_of_imp {α : Type} {keeps sees : α → Bool}
    (h : ∀ a, keeps a = true → sees a = true) (records : List α) :
    (records.filter sees).filter keeps = records.filter keeps := by
  rw [List.filter_filter]
  refine List.filter_congr fun a _ => ?_
  cases hkeeps : keeps a with
  | false => rfl
  | true => rw [h a hkeeps, Bool.and_self]

variable (store : OrgRecords)

theorem filterReceipts_seenBy (day : Timestamp → String) {params : GetReceiptsQuery}
    (h : Granted claims ⟨none, params.coopId, params.communityId⟩) :
    (store.seenBy claims).filterReceipts day params = store.filterReceipts day params := by
  refine congrArg (List.map _) (filter_filter_of_imp (fun r hr => ?_) _)
  simp only [Bool.and_eq_true] at hr
  exact h.sees hr.1.2 hr.2

theorem filterTokenBalances_seenBy {params : GetTokenBalancesQuery}
    (h : Granted claims ⟨none, params.coopId, params.communityId⟩) :
    (store.seenBy claims).filterTokenBalances params = store.filterTokenBalances params := by
  refine filter_filter_of_imp (fun b hb => ?_) _
  simp only [Bool.and_eq_true] at hb
  exact h.sees hb.1.2 hb.2

theorem filterTokenTransactions_seenBy (day : Timestamp → String)
    {params : GetTokenTransactionsQuery}
    (h : Granted claims ⟨none, params.coopId, params.communityId⟩) :
    (store.seenBy claims).filterTokenTransactions day params =
      store.filterTokenTransactions day params := by
  refine filter_filter_of_imp (fun tx htx => ?_) _
  simp only [Bool.and_eq_true] at htx
  exact h.sees_either htx.1.2 htx.2

theorem getReceiptStats_seenBy (mode : Overflow) (h : Granted claims params) :
    (store.seenBy claims).getReceiptStats mode params.coopId params.communityId =
      store.getReceiptStats mode params.coopId params.communityId := by
  have hfiltered : (store.seenBy claims).filteredReceipts params.coopId params.communityId =
      store.filteredReceipts params.coopId params.communityId := by
    refine filter_filter_of_imp (fun r hr => ?_) _
    simp only [Bool.and_eq_true] at hr
    exact h.sees hr.1 hr.2
  rw [OrgRecords.getReceiptStats, hfiltered, OrgRecords.getReceiptStats]

theorem getTokenStats_seenBy (mode : Overflow) (h : Granted claims params) :
    (store.seenBy claims).getTokenStats mode params.coopId params.communityId =
      store.getTokenStats mode params.coopId params.communityId := by
  have hfiltered : (store.seenBy claims).filteredTransactions params.coopId params.communityId =
      store.filteredTransactions params.coopId params.communityId := by
    refine filter_filter_of_imp (fun tx htx => ?_) _
    simp only [Bool.and_eq_true] at htx
    exact h.sees_either htx.1 htx.2
  rw [OrgRecords.getTokenStats, hfiltered, OrgRecords.getTokenStats]

theorem requireAccess_inj {α : Type} {auth : AuthenticatedRequest}
    {answer answer' : Except AuthError α}
    (h : auth.claims.hasOrgScopeAccess params.federationId params.coopId params.communityId = true)
    (hanswer : requireAccess auth params answer = requireAccess auth params answer') :
    answer = answer' := by
  rw [requireAccess, requireAccess, h] at hanswer
  exact hanswer

theorem requireAccess_congr {α : Type} {auth : AuthenticatedRequest}
    {answer answer' : Except AuthError α}
    (h : auth.claims.hasOrgScopeAccess params.federationId params.coopId params.communityId = true →
      answer = answer') :
    requireAccess auth params answer = requireAccess auth params answer' := by
  rw [requireAccess, requireAccess]
  cases haccess : auth.claims.hasOrgScopeAccess params.federationId params.coopId
      params.communityId with
  | false => rfl
  | true => exact h haccess

theorem ScopeQuery.NamesOrg.answer_seenBy {query : ScopeQuery} (h : query.NamesOrg)
    (mode : Overflow) (day : Timestamp → String) (auth : AuthenticatedRequest) :
    query.answer mode day auth (store.seenBy auth.claims) =
      query.answer mode day auth store := by
  cases query with
  | receipts params =>
      refine congrArg ScopeAnswer.receipts (requireAccess_congr fun haccess => ?_)
      rw [filterReceipts_seenBy store day ⟨haccess, h⟩]
  | tokenBalances params =>
      refine congrArg ScopeAnswer.tokenBalances (requireAccess_congr fun haccess => ?_)
      rw [filterTokenBalances_seenBy store ⟨haccess, h⟩]
  | tokenTransactions params =>
      refine congrArg ScopeAnswer.tokenTransactions (requireAccess_congr fun haccess => ?_)
      rw [filterTokenTransactions_seenBy store day ⟨haccess, h⟩]
  | receiptStats params =>
      refine congrArg ScopeAnswer.receiptStats (requireAccess_congr fun haccess => ?_)
      rw [getReceiptStats_seenBy store mode ⟨haccess, h⟩]
  | tokenStats params =>
      refine congrArg ScopeAnswer.tokenStats (requireAccess_congr fun haccess => ?_)
      rw [getTokenStats_seenBy store mode ⟨haccess, h⟩]

end Confinement

section Unnamed

def unnamedReceipt (executor : String) (timestamp : Timestamp) : ExecutionReceiptDetail where
  summary := ⟨"", executor, ∅, timestamp, none, none⟩
  taskCid := ""
  anchoredCids := []
  signature := ""

def unnamedTransaction (account : String) (timestamp : Timestamp) : TokenTransaction :=
  ⟨"", account, account, 0, "", timestamp, none, none, none, none⟩

def unnamedRecords (account : String) (timestamp : Timestamp) : OrgRecords where
  receipts := [unnamedReceipt account timestamp]
  tokenBalances := [⟨account, 0, none, none⟩]
  tokenTransactions := [unnamedTransaction account timestamp]

def noRecords : OrgRecords := ⟨[], [], []⟩

theorem seenBy_unnamedRecords (claims : ScopeClaims) (account : String) (timestamp : Timestamp) :
    (unnamedRecords account timestamp).seenBy claims = noRecords := by
  simp [OrgRecords.seenBy, unnamedRecords, unnamedReceipt, unnamedTransaction, ScopeClaims.sees,
    noRecords]

theorem seenBy_noRecords (claims : ScopeClaims) : noRecords.seenBy claims = noRecords := rfl

def ScopeQuery.account : ScopeQuery → String
  | receipts params => params.executor.getD ""
  | tokenBalances params => params.account.getD ""
  | tokenTransactions params => params.account.getD ""
  | receiptStats _ => ""
  | tokenStats _ => ""

theorem all_getD (account : Option String) :
    account.all (fun wanted => decide (account.getD "" = wanted)) = true := by
  cases account <;> simp

theorem totalReceipts_of_getReceiptStats {mode : Overflow} {store : OrgRecords}
    {coopId communityId : Option String} {stats : ReceiptStats}
    (h : store.getReceiptStats mode coopId communityId = some stats) :
    stats.totalReceipts = .ofNat (store.filteredReceipts coopId communityId).length := by
  simp only [OrgRecords.getReceiptStats, Option.bind_eq_bind, Option.bind_eq_some_iff] at h
  obtain ⟨counts, -, cpu, -, memory, -, storage, -, hstats⟩ := h
  exact (congrArg ReceiptStats.totalReceipts (Option.some.inj hstats)).symm

theorem activeAccounts_of_getTokenStats {mode : Overflow} {store : OrgRecords}
    {coopId communityId : Option String} {stats : TokenStats}
    (h : store.getTokenStats mode coopId communityId = some stats) :
    stats.activeAccounts = .ofNat ((store.filteredTransactions coopId communityId).flatMap
      fun tx => [tx.fromDid, tx.toDid]).toFinset.card := by
  simp only [OrgRecords.getTokenStats, Option.bind_eq_bind, Option.bind_eq_some_iff] at h
  obtain ⟨minted, -, burnt, -, volume, -, hstats⟩ := h
  exact (congrArg TokenStats.activeAccounts (Option.some.inj hstats)).symm

theorem getReceiptStats_unnamedRecords_ne (mode : Overflow) (account : String)
    (timestamp : Timestamp) :
    (unnamedRecords account timestamp).getReceiptStats mode none none ≠
      noRecords.getReceiptStats mode none none := by
  intro h
  have hnone : ∃ stats, noRecords.getReceiptStats mode none none = some stats := ⟨_, rfl⟩
  obtain ⟨stats, hstats⟩ := hnone
  have hone := totalReceipts_of_getReceiptStats (h.trans hstats)
  rw [totalReceipts_of_getReceiptStats hstats] at hone
  simp [OrgRecords.filteredReceipts, unnamedRecords, noRecords, unnamedReceipt, ofOrg] at hone

theorem getTokenStats_unnamedRecords_ne (mode : Overflow) (account : String)
    (timestamp : Timestamp) :
    (unnamedRecords account timestamp).getTokenStats mode none none ≠
      noRecords.getTokenStats mode none none := by
  intro h
  have hnone : ∃ stats, noRecords.getTokenStats mode none none = some stats := ⟨_, rfl⟩
  obtain ⟨stats, hstats⟩ := hnone
  have hone := activeAccounts_of_getTokenStats (h.trans hstats)
  rw [activeAccounts_of_getTokenStats hstats] at hone
  simp [OrgRecords.filteredTransactions, unnamedRecords, noRecords, unnamedTransaction,
    ofEitherOrg] at hone

/-- A query that names no organisation and is not refused is answered with records that the
caller does not see. -/
theorem answer_unnamedRecords_ne (mode : Overflow) {day : Timestamp → String}
    {auth : AuthenticatedRequest} {query : ScopeQuery} (hnames : ¬ query.NamesOrg)
    (haccess : query.Allowed auth.claims)
    {timestamp : Timestamp} (hdate : onDate day query.date timestamp = true) :
    query.answer mode day auth (unnamedRecords query.account timestamp) ≠
      query.answer mode day auth noRecords := by
  have hcoop : query.scope.coopId = none :=
    Option.not_isSome_iff_eq_none.mp fun hsome => hnames (.inl hsome)
  have hcommunity : query.scope.communityId = none :=
    Option.not_isSome_iff_eq_none.mp fun hsome => hnames (.inr hsome)
  intro hanswer
  cases query with
  | receipts params =>
      have hlist := requireAccess_inj haccess (ScopeAnswer.receipts.inj hanswer)
      simp only [ScopeQuery.scope, ScopeQuery.date] at hcoop hcommunity hdate
      simp [OrgRecords.filterReceipts, unnamedRecords, noRecords, unnamedReceipt, ofOrg, hcoop,
        hcommunity, hdate, ScopeQuery.account, all_getD] at hlist
  | tokenBalances params =>
      have hlist := requireAccess_inj haccess (ScopeAnswer.tokenBalances.inj hanswer)
      simp only [ScopeQuery.scope] at hcoop hcommunity
      simp [OrgRecords.filterTokenBalances, unnamedRecords, noRecords, ofOrg, hcoop, hcommunity,
        ScopeQuery.account, all_getD] at hlist
  | tokenTransactions params =>
      have hlist := requireAccess_inj haccess (ScopeAnswer.tokenTransactions.inj hanswer)
      simp only [ScopeQuery.scope, ScopeQuery.date] at hcoop hcommunity hdate
      simp [OrgRecords.filterTokenTransactions, unnamedRecords, noRecords, unnamedTransaction,
        ofEitherOrg, hcoop, hcommunity, hdate, ScopeQuery.account, all_getD] at hlist
  | receiptStats params =>
      have hstats := requireAccess_inj haccess (ScopeAnswer.receiptStats.inj hanswer)
      have hsame := Option.map_injective (fun _ _ h => (ReceiptStatsResponse.mk.inj h).1)
        (Except.ok.inj hstats)
      simp only [ScopeQuery.scope] at hcoop hcommunity
      rw [hcoop, hcommunity] at hsame
      exact getReceiptStats_unnamedRecords_ne mode _ timestamp hsame
  | tokenStats params =>
      have hstats := requireAccess_inj haccess (ScopeAnswer.tokenStats.inj hanswer)
      have hsame := Option.map_injective (fun _ _ h => (TokenStatsResponse.mk.inj h).1)
        (Except.ok.inj hstats)
      simp only [ScopeQuery.scope] at hcoop hcommunity
      rw [hcoop, hcommunity] at hsame
      exact getTokenStats_unnamedRecords_ne mode _ timestamp hsame

end Unnamed

section Converse

variable {auth : AuthenticatedRequest} {query : ScopeQuery}

/-- A query that is refused is answered in the same way whatever the records are. -/
theorem answer_of_not_allowed (mode : Overflow) (day : Timestamp → String)
    (hrefused : ¬ query.Allowed auth.claims) (store store' : OrgRecords) :
    query.answer mode day auth store = query.answer mode day auth store' := by
  cases query with
  | receipts params =>
      exact congrArg _ (requireAccess_congr fun haccess => absurd haccess hrefused)
  | tokenBalances params =>
      exact congrArg _ (requireAccess_congr fun haccess => absurd haccess hrefused)
  | tokenTransactions params =>
      exact congrArg _ (requireAccess_congr fun haccess => absurd haccess hrefused)
  | receiptStats params =>
      exact congrArg _ (requireAccess_congr fun haccess => absurd haccess hrefused)
  | tokenStats params =>
      exact congrArg _ (requireAccess_congr fun haccess => absurd haccess hrefused)

/-- A query for a date that no instant has is answered with an empty list. -/
theorem answer_of_no_date (mode : Overflow) {day : Timestamp → String}
    (hdate : ∀ timestamp, onDate day query.date timestamp = false) (store store' : OrgRecords) :
    query.answer mode day auth store = query.answer mode day auth store' := by
  have hnone : query.date ≠ none := by
    intro hnone
    have hsome := hdate default
    rw [hnone] at hsome
    cases hsome
  cases query with
  | receipts params =>
      simp only [ScopeQuery.date] at hdate
      simp [ScopeQuery.answer, getReceiptsAuthorized, OrgRecords.filterReceipts, hdate]
  | tokenTransactions params =>
      simp only [ScopeQuery.date] at hdate
      simp [ScopeQuery.answer, getTokenTransactionsAuthorized, OrgRecords.filterTokenTransactions,
        hdate]
  | tokenBalances params => exact absurd rfl hnone
  | receiptStats params => exact absurd rfl hnone
  | tokenStats params => exact absurd rfl hnone

end Converse

/-- **The answer to a query for records or statistics depends on nothing but the records that
name an organisation the caller has access to exactly if the query names an organisation, is
refused, or asks for a date that no instant has.** -/
theorem confined_iff (mode : Overflow) (day : Timestamp → String) (auth : AuthenticatedRequest)
    (query : ScopeQuery) :
    query.Confined mode day auth ↔
      query.NamesOrg ∨ ¬ query.Allowed auth.claims ∨
        ∀ timestamp, onDate day query.date timestamp = false := by
  constructor
  · intro hconfined
    by_contra hnot
    simp only [not_or, not_not, not_forall, Bool.not_eq_false] at hnot
    obtain ⟨hnames, haccess, timestamp, hdate⟩ := hnot
    refine answer_unnamedRecords_ne mode hnames haccess hdate (hconfined _ _ ?_)
    rw [seenBy_unnamedRecords, seenBy_noRecords]
  · rintro (hnames | hrefused | hdate) store store' hseen
    · rw [← hnames.answer_seenBy store, hseen, hnames.answer_seenBy store']
    · exact answer_of_not_allowed mode day hrefused store store'
    · exact answer_of_no_date mode hdate store store'

end AgoraNet

end Icn
