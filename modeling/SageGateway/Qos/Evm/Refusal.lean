import SageGateway.Heuristic.Indicators
import SageGateway.Lib.GoTime
import SageGateway.Lib.NetIP

namespace SageGateway.Qos.Evm

open Json (Bytes ascii)

def refusalMaxSpan : UInt64 := 10

def refusalMinBlocks : UInt64 := 16

def refusalMinAge : Int := 30 * GoTime.second

def refusalMaxBlocks : UInt64 := 128

def refusalMaxAge : Int := 10 * GoTime.minute

def refusalClaims : List Bytes := ["has been pruned","is pruned","pruned history",
  "no state available for block","no state found for block","state not available",
  "height is not available"].map ascii

def perBlockClaims : List Bytes := ["no state found for block","no state available for block",
  "requested height has been pruned"].map ascii

def stateMethods : List Bytes := ["eth_getBalance","eth_call","eth_estimateGas","eth_getCode",
  "eth_getStorageAt","eth_getTransactionCount","debug_traceBlockByNumber","trace_block",
  "trace_replayBlockTransactions"].map ascii

def methodsWithLeadingBlock : List Bytes := ["debug_traceBlockByNumber","eth_getBlockReceipts",
  "trace_block","trace_replayBlockTransactions"].map ascii

def methodsWithBlockParam : List Bytes := ["eth_getBalance","eth_getCode",
  "eth_getTransactionCount","eth_getStorageAt","eth_call","eth_estimateGas",
  "eth_getBlockByNumber","eth_getBlockTransactionCountByNumber",
  "eth_getUncleCountByBlockNumber","eth_getUncleByBlockNumberAndIndex",
  "eth_getTransactionByBlockNumberAndIndex"].map ascii

def recentStateBlockTags : List GoString :=
  ["latest","pending","safe","finalized"].map String.toList

def blockTagEarliest : GoString := "earliest".toList

def parseUintHex (s : GoString) : Option UInt64 :=
  if s = [] then none
  else (s.mapM NetIP.Addr.hexDigit?).bind fun ds =>
    let n := ds.foldl (fun v d => v * 16 + d) 0
    if n < 2 ^ 64 then some (UInt64.ofNat n) else none

def parseHexUint64 (s : GoString) : Option UInt64 :=
  match GoString.trimSpace s with
  | '0' :: x :: hex => if x = 'x' ∨ x = 'X' then parseUintHex hex else none
  | _ => none

-- An element of params as gjson reads it; the members are those of a log filter.
structure Param where
  isString : Bool
  text : GoString
  blockHash : Option GoString := none
  fromBlock : Option GoString := none
  toBlock : Option GoString := none

structure Payload where
  method : Bytes
  params : List Param

-- What strings.ToLower makes of a text, and gjson.Parse of a text put back in quotes.
structure Texts where
  toLower : Bytes → Bytes
  requote : GoString → GoString

def block (head : UInt64) : Option GoString → Option UInt64
  | none => some head
  | some tag =>
      if tag ∈ recentStateBlockTags then some head
      else if tag = blockTagEarliest then some 0
      else parseHexUint64 tag

def findLastStringParam (args : List Param) : GoString :=
  ((args.reverse.find? Param.isString).map Param.text).getD []

variable (T : Texts) (payload : Payload) (head : UInt64)

def requestedBlocks : Option (UInt64 × UInt64) :=
  let one := fun n => (n,n)
  if payload.method = ascii "eth_getLogs" then
    match payload.params with
    | [] => none
    | filter :: _ =>
        if filter.blockHash.isSome then none
        else (block head filter.fromBlock).bind fun f => (block head filter.toBlock).map (f,·)
  else if payload.method ∈ methodsWithLeadingBlock then
    match payload.params with
    | [] => none
    | arg :: _ => if arg.isString then (block head (some arg.text)).map one else none
  else if payload.method ∈ methodsWithBlockParam then
    let s := findLastStringParam payload.params
    if s = [] then none else (block head (some (T.requote s))).map one
  else none

def claimsAny (details : Bytes) (wordings : List Bytes) : Bool :=
  wordings.any fun w => decide (w <:+: T.toLower details)

variable (result : Heuristic.AnalysisResult) (blocksIn : Option (Int → UInt64))

def perBlock : Bool :=
  payload.method ∉ stateMethods && claimsAny T result.details perBlockClaims

def minBack : UInt64 :=
  match blocksIn with
  | none => refusalMinBlocks
  | some f => max refusalMinBlocks (f refusalMinAge)

def maxBack : UInt64 :=
  match blocksIn with
  | none => refusalMaxBlocks
  | some f =>
      if payload.method ∈ stateMethods then refusalMaxBlocks
      else max refusalMaxBlocks (f refusalMaxAge)

def floorBlock (blocks : UInt64 × UInt64) : UInt64 :=
  if perBlock T payload result then blocks.1 else blocks.2

def refusedRecent (details : Bytes) : Heuristic.AnalysisResult where
  shouldRetry := true
  shouldPenalize := true
  penaltySeverity := .major
  attribution := .supplier
  confidence := 90
  reason := ascii "refused_recent"
  details := details

def refusalDetails (f t : UInt64) : Bytes :=
  payload.method ++ ascii (" blocks " ++ toString f ++ "-" ++ toString t ++ ", " ++
    toString (head - min t head) ++ "-" ++ toString (head - f) ++ " behind the head " ++
    toString head ++ ": ") ++ result.details

def refusalVerdict : Heuristic.AnalysisResult × Bool × String :=
  if head = 0 ∨ result.attribution = .supplier ∨
      claimsAny T result.details refusalClaims = false then (result,false,"")
  else
    match requestedBlocks T payload head with
    | none => (result,false,"no block number")
    | some (f,t) =>
        if t < f then (result,false,"no block number")
        else if perBlock T payload result = false ∧ refusalMaxSpan < t - f then
          (result,false,"span")
        else if head < floorBlock T payload result (f,t) + minBack blocksIn then
          (result,false,"too new")
        else if f + maxBack payload blocksIn < head then (result,false,"too old")
        else (refusedRecent (refusalDetails payload head result f t),true,"")

variable {T payload head result blocksIn}

theorem refusalVerdict_charged {refined : Heuristic.AnalysisResult} {why : String}
    (h : refusalVerdict T payload head result blocksIn = (refined,true,why)) :
    ∃ f t, requestedBlocks T payload head = some (f,t) ∧ f ≤ t ∧
      (perBlock T payload result = true ∨ t - f ≤ refusalMaxSpan) ∧
      floorBlock T payload result (f,t) + minBack blocksIn ≤ head ∧
      head ≤ f + maxBack payload blocksIn := by
  unfold refusalVerdict at h
  rw [if_neg fun hn => by rw [if_pos hn] at h; cases h] at h
  split at h
  · cases h
  · rename_i f t hb
    split_ifs at h with ho hs hne hold
    · cases h
    · cases h
    · cases h
    · cases h
    refine ⟨f,t,hb,UInt64.not_lt.mp ho,?_,UInt64.not_lt.mp hne,UInt64.not_lt.mp hold⟩
    simpa [or_iff_not_imp_left] using hs

theorem toNat_add_le (a b : UInt64) : (a + b).toNat ≤ a.toNat + b.toNat := by
  exact Nat.mod_le _ _

variable (T payload head result blocksIn) in
def InsideWindow : Prop :=
  ∃ f t, requestedBlocks T payload head = some (f,t) ∧ f ≤ t ∧
    head.toNat ≤ f.toNat + (maxBack payload blocksIn).toNat ∧
    (t.toNat - f.toNat ≤ refusalMaxSpan.toNat ∧
        t.toNat + (minBack blocksIn).toNat ≤ head.toNat ∨
      payload.method ∉ stateMethods ∧ claimsAny T result.details perBlockClaims = true ∧
        f.toNat + (minBack blocksIn).toNat ≤ head.toNat)

theorem InsideWindow.floor_le (h : InsideWindow T payload head result blocksIn)
    {blocks : UInt64 × UInt64} (hb : requestedBlocks T payload head = some blocks) :
    (floorBlock T payload result blocks).toNat + (minBack blocksIn).toNat ≤ head.toNat := by
  obtain ⟨f,t,hn,ho,-,hin⟩ := h
  cases hb.symm.trans hn
  rw [UInt64.le_iff_toNat_le] at ho
  unfold floorBlock
  split_ifs with hp
  · rcases hin with ⟨-,ht⟩ | ⟨-,-,hf⟩
    · exact (Nat.add_le_add_right ho _).trans ht
    · exact hf
  · rcases hin with ⟨-,ht⟩ | ⟨hs,hc,-⟩
    · exact ht
    · exact absurd (Bool.and_eq_true_iff.mpr ⟨decide_eq_true hs,hc⟩) hp

theorem refusal_inside_window {refined : Heuristic.AnalysisResult} {why : String}
    (h : refusalVerdict T payload head result blocksIn = (refined,true,why)) :
    InsideWindow T payload head result blocksIn ↔
      ∀ blocks, requestedBlocks T payload head = some blocks →
        (floorBlock T payload result blocks).toNat + (minBack blocksIn).toNat < 2 ^ 64 := by
  refine ⟨fun hin blocks hb => (hin.floor_le hb).trans_lt head.toNat_lt,fun hwrap => ?_⟩
  obtain ⟨f,t,hb,ho,hsp,hf,hc⟩ := refusalVerdict_charged h
  have he := hwrap (f,t) hb
  rw [UInt64.le_iff_toNat_le,UInt64.toNat_add,Nat.mod_eq_of_lt he] at hf
  refine ⟨f,t,hb,ho,(UInt64.le_iff_toNat_le.mp hc).trans (toNat_add_le _ _),?_⟩
  cases hp : perBlock T payload result with
  | true =>
    obtain ⟨hh,hcl⟩ := Bool.and_eq_true_iff.mp hp
    rw [floorBlock,hp] at hf
    exact .inr ⟨of_decide_eq_true hh,hcl,hf⟩
  | false =>
    rw [floorBlock,hp] at hf
    have hs := hsp.resolve_left (by simp [hp])
    rw [UInt64.le_iff_toNat_le,UInt64.toNat_sub_of_le _ _ ho] at hs
    exact .inl ⟨hs,hf⟩

def plainTexts : Texts := ⟨id,id⟩

def pruned : Heuristic.AnalysisResult := {
  attribution := .blockchain
  confidence := 85
  reason := ascii "blockchain_error"
  details := ascii "requested height has been pruned" }

def callAt (number : String) : Payload := ⟨ascii "eth_call",[⟨false,[],none,none,none⟩,
  ⟨true,number.toList,none,none,none⟩]⟩

theorem recent_call_charged : ∃ f t, requestedBlocks plainTexts (callAt "0x3b6") 1000 = some (f,t) ∧
    t.toNat + 16 ≤ 1000 := by
  have hc : (refusalVerdict plainTexts (callAt "0x3b6") 1000 pruned none).2 = (true,"") := by
    decide +kernel
  have hb : requestedBlocks plainTexts (callAt "0x3b6") 1000 = some (950,950) := by
    decide +kernel
  obtain ⟨f,t,hn,-,-,hin | ⟨hs,-⟩⟩ := (refusal_inside_window (Prod.ext rfl hc)).mpr
    fun blocks hr => by
      cases hr.symm.trans hb
      decide +kernel
  · exact ⟨f,t,hn,hin.2⟩
  · exact absurd (by decide +kernel) hs

theorem newest_number_charged :
    let payload := callAt "0xffffffffffffffff"
    requestedBlocks plainTexts payload 100 = some (18446744073709551615,18446744073709551615) ∧
    perBlock plainTexts payload pruned = false ∧
    (refusalVerdict plainTexts payload 100 pruned none).2 = (true,"") ∧
    (refusalVerdict plainTexts payload 100 pruned none).1.attribution = .supplier := by
  decide +kernel

end SageGateway.Qos.Evm
