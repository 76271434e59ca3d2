import SageGateway.Blocklist
import SageGateway.Lib.FirstHit
import Mathlib.Data.Finset.Lattice.Fold

namespace SageGateway

open List Option GoMap

open FirstHit

abbrev Ban := WithBot (WithTop (Finset RPCType))

def Ban.ofType (t : RPCType) : Ban := (({t} : Finset RPCType) : WithTop (Finset RPCType))

def Ban.ofSet : Option (Finset RPCType) → Ban
  | none => ⊤
  | some s => (s : WithTop (Finset RPCType))

theorem Ban.ofSet_ne_bot (s : Option (Finset RPCType)) : Ban.ofSet s ≠ ⊥ := by
  cases s <;> simp [Ban.ofSet]

theorem Ban.ofType_le_ofSet (t : RPCType) (s : Finset RPCType) :
    Ban.ofType t ≤ Ban.ofSet (some s) ↔ t ∈ s := by
  simp [Ban.ofType,Ban.ofSet,WithBot.coe_le_coe,WithTop.coe_le_coe]

theorem Ban.ofSet_sup (s u : Finset RPCType) :
    Ban.ofSet (some s) ⊔ Ban.ofSet (some u) = Ban.ofSet (some (s ∪ u)) := rfl

def BlockedTable.ban (blocked : BlockedTable) (k : GoString) : Ban :=
  ((blocked.get k).map Ban.ofSet).getD ⊥

theorem BlockedTable.ban_eq_bot_iff (blocked : BlockedTable) (k : GoString) :
    blocked.ban k = ⊥ ↔ blocked.has k = false := by
  cases h : blocked.get k with
  | none => simp [BlockedTable.ban,has,h]
  | some s => simp [BlockedTable.ban,has,h,Ban.ofSet_ne_bot]

theorem BlockedTable.ban_put (blocked : BlockedTable) (k : GoString)
    (s : Option (Finset RPCType)) {a : Ban} (h : blocked.ban k ⊔ a = Ban.ofSet s) :
    BlockedTable.ban (blocked.put k s) = raise blocked.ban k a := by
  funext j
  unfold raise
  split_ifs with hj
  · subst hj
    simp [BlockedTable.ban,← h]
  · simp [BlockedTable.ban,get_put,hj]

namespace BlockedDomain

def typeSet (e : BlockedDomain) : Finset RPCType :=
  (e.rpcTypes.filterMap fun t => RPCType.parseRPCType (GoString.trimSpace t)).toFinset

def ban (e : BlockedDomain) : Ban :=
  Ban.ofSet (if e.rpcTypes = [] then none else some e.typeSet)

def Valid (P : Platform) (e : BlockedDomain) : Prop :=
  e.host P ≠ [] ∧ ∀ t ∈ e.rpcTypes, (RPCType.parseRPCType (GoString.trimSpace t)).isSome

instance (P : Platform) (e : BlockedDomain) : Decidable (e.Valid P) :=
  inferInstanceAs (Decidable (_ ∧ ∀ t ∈ e.rpcTypes, _))

theorem ban_ne_bot (e : BlockedDomain) : e.ban ≠ ⊥ := Ban.ofSet_ne_bot _

theorem addRPCTypes_eq (host : GoString) (set : Finset RPCType) (ts : List GoString)
    (h : ∀ t ∈ ts, (RPCType.parseRPCType (GoString.trimSpace t)).isSome) :
    addRPCTypes host set ts = .ok
      (set ∪ (ts.filterMap fun t => RPCType.parseRPCType (GoString.trimSpace t)).toFinset) := by
  induction ts generalizing set with
  | nil => simp [addRPCTypes]
  | cons t ts ih =>
    obtain ⟨r,hr⟩ := isSome_iff_exists.mp (h t (.head _))
    simp [addRPCTypes,hr,ih _ fun u hu => h u (mem_cons_of_mem t hu)]

theorem addEntry_spec {P : Platform} (blocked : BlockedTable) {e : BlockedDomain}
    (h : e.Valid P) :
    ∃ blocked', addEntry P blocked e = .ok blocked' ∧
      BlockedTable.ban blocked' = raise (BlockedTable.ban blocked) (e.host P) e.ban := by
  by_cases hts : e.rpcTypes = []
  · refine ⟨blocked.put (e.host P) none,by simp [addEntry,if_neg h.1,if_pos hts],
      BlockedTable.ban_put _ _ _ ?_⟩
    simp [ban,hts,Ban.ofSet]
  · have ha := fun set => addRPCTypes_eq (e.host P) set e.rpcTypes h.2
    have hb : e.ban = Ban.ofSet (some e.typeSet) := by simp [ban,hts]
    simp [addEntry,if_neg h.1,if_neg hts]
    cases hg : blocked.get (e.host P) with
    | none =>
      refine ⟨_,by simp [ha]; rfl,BlockedTable.ban_put _ _ _ ?_⟩
      simp [BlockedTable.ban,hg,hb,typeSet]
    | some old =>
      cases old with
      | none =>
        refine ⟨blocked,rfl,?_⟩
        funext k
        unfold raise
        split_ifs with hk
        · simp [BlockedTable.ban,hk,hg,Ban.ofSet]
        · rfl
      | some set =>
        refine ⟨_,by simp [ha]; rfl,BlockedTable.ban_put _ _ _ ?_⟩
        simp [BlockedTable.ban,hg,hb,Ban.ofSet_sup,typeSet]

theorem compile_spec {P : Platform} (blocked : BlockedTable) {es : List BlockedDomain}
    (h : ∀ e ∈ es, e.Valid P) :
    ∃ blocked', compile P blocked es = .ok blocked' ∧ BlockedTable.ban blocked' =
      es.foldl (fun f e => raise f (e.host P) e.ban) (BlockedTable.ban blocked) := by
  induction es generalizing blocked with
  | nil => exact ⟨blocked,rfl,rfl⟩
  | cons e es ih =>
    obtain ⟨mid,hm,hb⟩ := addEntry_spec blocked (h e (.head _))
    obtain ⟨out,ho,hs⟩ := ih mid fun x hx => h x (mem_cons_of_mem e hx)
    refine ⟨out,by simp [compile,hm,ho],?_⟩
    rw [hs,hb,foldl_cons]

def bansType (e : BlockedDomain) (t : RPCType) : Bool :=
  e.rpcTypes = [] || e.rpcTypes.any fun s => RPCType.parseRPCType (GoString.trimSpace s) = some t

theorem ofType_le_ban (e : BlockedDomain) (t : RPCType) :
    Ban.ofType t ≤ e.ban ↔ e.bansType t = true := by
  by_cases h : e.rpcTypes = []
  · simp [ban,bansType,h,Ban.ofSet]
  · simp [ban,bansType,h,Ban.ofType_le_ofSet,typeSet]

def listed (P : Platform) (es : List BlockedDomain) (k : GoString) : Bool :=
  es.any fun e => e.host P = k

theorem foldl_raise_eq_bot_iff (P : Platform) (es : List BlockedDomain) (f : GoString → Ban)
    (k : GoString) :
    es.foldl (fun f e => raise f (e.host P) e.ban) f k = ⊥ ↔ f k = ⊥ ∧ listed P es k = false := by
  induction es generalizing f with
  | nil => simp [listed]
  | cons e es ih =>
    rw [foldl_cons,ih]
    by_cases hk : k = e.host P
    · simp [raise,listed,hk,e.ban_ne_bot]
    · simp [raise,listed,hk,Ne.symm hk]

theorem foldl_raise_perm (P : Platform) {es es' : List BlockedDomain} (h : es.Perm es')
    (f : GoString → Ban) :
    es.foldl (fun f e => raise f (e.host P) e.ban) f =
      es'.foldl (fun f e => raise f (e.host P) e.ban) f :=
  h.foldl_eq' (fun _ _ _ _ _ => raise_comm _ _ _ _ _) f

end BlockedDomain

def urlKeys (P : Platform) (rawURL : GoString) : List GoString :=
  let addr : EndpointAddr := '-' :: rawURL
  let host := P.toLower addr.domain
  let operator := P.toLower (addr.operator P)
  if host = [] then [] else host :: if operator ≠ host then [operator] else []

def lookupKeys (P : Platform) (rawURL owner : GoString) : List GoString :=
  (if owner = [] then [] else [owner]) ++ if rawURL = [] then [] else urlKeys P rawURL

theorem computeMatchKey_spec (P : Platform) {blocked : BlockedTable}
    (hn : blocked.get [] = none) (rawURL : GoString) :
    blocked.ban (computeMatchKey P blocked rawURL) = firstHit blocked.ban (urlKeys P rawURL) ∧
      (computeMatchKey P blocked rawURL ≠ [] →
        blocked.has (computeMatchKey P blocked rawURL) = true) := by
  have hni : blocked.ban [] = ⊥ := by simp [BlockedTable.ban,hn]
  have hbo := BlockedTable.ban_eq_bot_iff blocked
  unfold computeMatchKey urlKeys
  dsimp only
  split_ifs with hh hb hop hne
  · exact ⟨hni,fun h => absurd rfl h⟩
  all_goals simp_all [firstHit]

namespace DomainBlocklist

variable {P : Platform}

def ban (b : Option (DomainBlocklist P)) : GoString → Ban :=
  (b.map fun b => b.blocked.ban).getD fun _ => ⊥

def Blocks (b : Option (DomainBlocklist P)) (rawURL owner : GoString) (t : RPCType) : Prop :=
  (isBlockedEndpoint b rawURL owner t).1 = true

instance (b : Option (DomainBlocklist P)) (rawURL owner : GoString) (t : RPCType) :
    Decidable (Blocks b rawURL owner t) := inferInstanceAs (Decidable (_ = true))

theorem banned_iff (b : DomainBlocklist P) {key : GoString}
    (h : key ≠ [] → b.blocked.has key = true) (t : RPCType) :
    b.banned key t = true ↔ Ban.ofType t ≤ b.blocked.ban key := by
  by_cases hk : key = []
  · simp [banned,hk,BlockedTable.ban,b.named,Ban.ofType]
  · obtain ⟨s,hs⟩ := (has_iff _ _).mp (h hk)
    cases s with
    | none => simp [banned,hk,hs,BlockedTable.ban,Ban.ofSet]
    | some set => simp [banned,hk,hs,BlockedTable.ban,Ban.ofType_le_ofSet]

theorem blockedKey_spec (b : DomainBlocklist P) (rawURL owner : GoString) :
    b.blocked.ban (b.blockedKey rawURL owner).1 =
        firstHit b.blocked.ban (lookupKeys P rawURL owner) ∧
      ((b.blockedKey rawURL owner).1 ≠ [] →
        b.blocked.has (b.blockedKey rawURL owner).1 = true) := by
  have hb := BlockedTable.ban_eq_bot_iff b.blocked
  have hu := computeMatchKey_spec P b.named rawURL
  have hn : b.blocked.ban [] = ⊥ := by simp [BlockedTable.ban,b.named]
  unfold blockedKey lookupKeys
  by_cases ho : owner ≠ [] ∧ b.blocked.has owner = true
  · have hne : b.blocked.ban owner ≠ ⊥ := by simp [hb,ho.2]
    simpa [if_pos ho,if_neg ho.1,firstHit,if_neg hne] using fun _ => ho.2
  · have hs : ∀ ks, firstHit b.blocked.ban ((if owner = [] then [] else [owner]) ++ ks) =
        firstHit b.blocked.ban ks := by
      by_cases hne : owner = []
      · simp [hne]
      · have hz : b.blocked.ban owner = ⊥ := by simp_all
        simp [hne,firstHit,hz]
    rw [if_neg ho,hs]
    by_cases hr : rawURL = []
    · simp [hr,firstHit,hn]
    · simpa only [ne_eq,hr,not_false_eq_true,if_true,if_false,matchKey_fst] using hu

theorem firstHit_bot (ks : List GoString) : firstHit (fun _ => (⊥ : Ban)) ks = ⊥ := by
  induction ks with
  | nil => rfl
  | cons k ks ih => simp [firstHit,ih]

theorem blocks_iff (b : Option (DomainBlocklist P)) (rawURL owner : GoString) (t : RPCType) :
    Blocks b rawURL owner t ↔ Ban.ofType t ≤ firstHit (ban b) (lookupKeys P rawURL owner) := by
  cases b with
  | none => simp [Blocks,isBlockedEndpoint,ban,firstHit_bot,Ban.ofType]
  | some b =>
    obtain ⟨hb,hh⟩ := b.blockedKey_spec rawURL owner
    simpa [Blocks,isBlockedEndpoint,ban,← hb] using b.banned_iff hh t

end DomainBlocklist

variable {env : GoString} {es : List BlockedDomain} {P : Platform}

theorem newDomainBlocklist_spec
    (h : ∀ e ∈ es ++ BlockedDomain.parseBlockedDomainsEnv env, e.Valid P) :
    ∃ b, newDomainBlocklist P env es = .ok b ∧ DomainBlocklist.ban b =
      (es ++ BlockedDomain.parseBlockedDomainsEnv env).foldl
        (fun f e => raise f (e.host P) e.ban) fun _ => ⊥ := by
  obtain ⟨blocked,hc,hb⟩ := BlockedDomain.compile_spec ∅ h
  have he : BlockedTable.ban ∅ = fun _ => ⊥ := by
    funext k
    simp [BlockedTable.ban]
  by_cases hes : es ++ BlockedDomain.parseBlockedDomainsEnv env = []
  · refine ⟨none,by simp [newDomainBlocklist,hes],?_⟩
    rw [hes]
    rfl
  · refine ⟨some ⟨blocked,∅,0,BlockedDomain.compile_named (get_empty _) hc,by simp⟩,?_,?_⟩
    · simp [newDomainBlocklist,hes]
      split
      · rename_i blocked' hc'
        rw [hc] at hc'
        cases hc'
        rfl
      · rename_i err hc'
        rw [hc] at hc'
        cases hc'
    · simpa [DomainBlocklist.ban,he] using hb

theorem blocks_perm {es' : List BlockedDomain}
    (h : ∀ e ∈ es ++ BlockedDomain.parseBlockedDomainsEnv env, e.Valid P) (hp : es'.Perm es) :
    ∃ b b', newDomainBlocklist P env es = .ok b ∧ newDomainBlocklist P env es' = .ok b' ∧
      ∀ rawURL owner t, DomainBlocklist.Blocks b' rawURL owner t ↔
        DomainBlocklist.Blocks b rawURL owner t := by
  have hpe := hp.append_right (BlockedDomain.parseBlockedDomainsEnv env)
  obtain ⟨b,hb,hba⟩ := newDomainBlocklist_spec h
  obtain ⟨b',hb',hba'⟩ := newDomainBlocklist_spec fun e he => h e (hpe.mem_iff.mp he)
  refine ⟨b,b',hb,hb',fun rawURL owner t => ?_⟩
  rw [DomainBlocklist.blocks_iff,DomainBlocklist.blocks_iff,hba,hba',
    BlockedDomain.foldl_raise_perm P hpe]

theorem blocks_append_iff
    {e : BlockedDomain} {b b' : Option (DomainBlocklist P)}
    (hba : DomainBlocklist.ban b = (es ++ BlockedDomain.parseBlockedDomainsEnv env).foldl
      (fun f e => raise f (e.host P) e.ban) fun _ => ⊥)
    (hb' : DomainBlocklist.ban b' = raise (DomainBlocklist.ban b) (e.host P) e.ban)
    {rawURL owner : GoString} {t : RPCType} (hb : DomainBlocklist.Blocks b rawURL owner t) :
    DomainBlocklist.Blocks b' rawURL owner t ↔
      BlockedDomain.listed P (es ++ BlockedDomain.parseBlockedDomainsEnv env) (e.host P) = true ∨
      e.bansType t = true ∨
      e.host P ∉ (lookupKeys P rawURL owner).takeWhile fun k =>
        !BlockedDomain.listed P (es ++ BlockedDomain.parseBlockedDomainsEnv env) k := by
  have hbo : ∀ k, DomainBlocklist.ban b k = ⊥ ↔
      BlockedDomain.listed P (es ++ BlockedDomain.parseBlockedDomainsEnv env) k = false := by
    intro k
    rw [hba,BlockedDomain.foldl_raise_eq_bot_iff]
    simp
  rw [DomainBlocklist.blocks_iff] at hb
  rw [DomainBlocklist.blocks_iff,hb',le_firstHit_raise_iff e.ban_ne_bot hb,
    BlockedDomain.ofType_le_ban,ne_eq,hbo,Bool.not_eq_false]
  simp [consulted,hbo]

theorem inserted_entry_widens_iff (P : Platform) (env : GoString) (L₁ L₂ : List BlockedDomain)
    (e : BlockedDomain)
    (hL : ∀ x ∈ L₁ ++ L₂ ++ BlockedDomain.parseBlockedDomainsEnv env, x.Valid P)
    (he : e.Valid P) :
    ∃ b b', newDomainBlocklist P env (L₁ ++ L₂) = .ok b ∧
      newDomainBlocklist P env (L₁ ++ e :: L₂) = .ok b' ∧
      (∀ L', L'.Perm (L₁ ++ L₂) → ∃ bp, newDomainBlocklist P env L' = .ok bp ∧
        ∀ rawURL owner t, DomainBlocklist.Blocks bp rawURL owner t ↔
          DomainBlocklist.Blocks b rawURL owner t) ∧
      ∀ rawURL owner t, DomainBlocklist.Blocks b rawURL owner t →
        (DomainBlocklist.Blocks b' rawURL owner t ↔
          BlockedDomain.listed P (L₁ ++ L₂ ++ BlockedDomain.parseBlockedDomainsEnv env)
            (e.host P) = true ∨
          e.bansType t = true ∨
          e.host P ∉ (lookupKeys P rawURL owner).takeWhile fun k =>
            !BlockedDomain.listed P (L₁ ++ L₂ ++ BlockedDomain.parseBlockedDomainsEnv env) k) := by
  have hm : (L₁ ++ e :: L₂ ++ BlockedDomain.parseBlockedDomainsEnv env).Perm
      (L₁ ++ L₂ ++ BlockedDomain.parseBlockedDomainsEnv env ++ [e]) := by
    rw [append_assoc,append_assoc,append_assoc]
    refine List.Perm.append_left L₁ ?_
    rw [← append_assoc]
    exact (perm_append_singleton e _).symm
  have hL' : ∀ x ∈ L₁ ++ e :: L₂ ++ BlockedDomain.parseBlockedDomainsEnv env, x.Valid P := by
    intro x hx
    rcases mem_append.mp (hm.mem_iff.mp hx) with h | h
    · exact hL x h
    · exact mem_singleton.mp h ▸ he
  obtain ⟨b,hb,hba⟩ := newDomainBlocklist_spec hL
  obtain ⟨b',hb',hba'⟩ := newDomainBlocklist_spec hL'
  refine ⟨b,b',hb,hb',?_,?_⟩
  · intro L' hp
    obtain ⟨b₀,bp,hb₀,hbp,hif⟩ := blocks_perm hL hp
    cases hb.symm.trans hb₀
    exact ⟨bp,hbp,hif⟩
  · intro rawURL owner t hbl
    refine blocks_append_iff hba ?_ hbl
    rw [hba',BlockedDomain.foldl_raise_perm P hm,foldl_append,hba]
    rfl

def operatorBan : BlockedDomain := ⟨"op-alpha.example".toList,[]⟩

def hostBan : BlockedDomain := ⟨"s019.op-alpha.example".toList,["websocket".toList]⟩

theorem host_entry_lifts_operator_ban :
    ∃ b b', newDomainBlocklist asciiPlatform [] [operatorBan] = .ok b ∧
      newDomainBlocklist asciiPlatform [] [operatorBan,hostBan] = .ok b' ∧
      DomainBlocklist.Blocks b "https://s019.op-alpha.example".toList [] .jsonRPC ∧
      ¬DomainBlocklist.Blocks b' "https://s019.op-alpha.example".toList [] .jsonRPC :=
  ⟨_,_,rfl,rfl,by decide,by decide⟩

theorem host_entry_keeps_websocket_ban :
    ∃ b', newDomainBlocklist asciiPlatform [] [operatorBan,hostBan] = .ok b' ∧
      DomainBlocklist.Blocks b' "wss://s019.op-alpha.example:443/".toList [] .webSocket := by
  obtain ⟨b,b',hb,hb',-,h⟩ := inserted_entry_widens_iff asciiPlatform [] [operatorBan] [] hostBan
    (by decide) (by decide)
  cases hb
  exact ⟨b',hb',(h _ _ _ (by decide)).mpr (by decide)⟩

end SageGateway
