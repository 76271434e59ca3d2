import SageGateway.Relay.Quorum

namespace SageGateway

open List Option GoMap

theorem OperatorGroup.join_operator (repSvc : Option ScoreView) (ep : EndpointAddr)
    (g : OperatorGroup) : (g.join repSvc ep).operator = g.operator := by
  cases repSvc with
  | none => rfl
  | some v =>
    simp [join,weigh]
    split
    · rfl
    · split_ifs <;> rfl

theorem groupOperators_nodup (P : Platform) (repSvc : Option ScoreView)
    (pool : List EndpointAddr) :
    ((groupOperators P repSvc pool).map OperatorGroup.operator).Nodup := by
  have hk : ∀ groups : List OperatorGroup, (groups.map OperatorGroup.operator).Nodup →
      ((pool.foldl (fun groups ep =>
        let op := ep.operator P
        if groups.any fun g => g.operator = op then
          groups.map fun g => if g.operator = op then g.join repSvc ep else g
        else groups ++ [OperatorGroup.join repSvc ep ⟨op,[],false,-1⟩]) groups).map
          OperatorGroup.operator).Nodup := by
    induction pool with
    | nil => exact fun groups h => h
    | cons ep pool ih =>
      intro groups h
      apply ih
      dsimp only
      split
      · rw [List.map_map]
        have hs : (OperatorGroup.operator ∘ fun g =>
            if g.operator = ep.operator P then g.join repSvc ep else g) =
            OperatorGroup.operator := by
          funext g
          rw [Function.comp_apply]
          split
          · exact g.join_operator repSvc ep
          · rfl
        rwa [hs]
      · next hn =>
        rw [map_append,map_singleton,OperatorGroup.join_operator,nodup_append]
        refine ⟨h,nodup_singleton _,?_⟩
        intro op hop op' ho' he
        cases mem_singleton.mp ho'
        obtain ⟨g,hg,rfl⟩ := List.mem_map.mp hop
        exact hn (List.any_eq_true.mpr ⟨g,hg,decide_eq_true he⟩)
  exact hk [] nodup_nil

theorem quorumSize_bounds (header : GoString) :
    3 ≤ quorumSize header ∧ quorumSize header ≤ 9 ∧ quorumSize header % 2 = 1 := by
  simp [quorumSize,defaultQuorum,maxQuorum]
  split_ifs <;> omega

theorem oddArms_cases (n : Nat) : oddArms n ≤ n ∧ (oddArms n ≤ 2 ∨ oddArms n % 2 = 1) := by
  unfold oddArms
  split_ifs <;> omega

structure Arms (groups : List OperatorGroup) : Prop where
  some : groups ≠ []
  few : groups.length ≤ 9
  odd : groups.length ≤ 2 ∨ groups.length % 2 = 1
  operators : (groups.map OperatorGroup.operator).Nodup

theorem length_topOperators (P : Platform) (repSvc : Option ScoreView)
    (pool : List EndpointAddr) (n : Nat) :
    ∃ k ≤ n, (topOperators P repSvc pool n).length = oddArms k := by
  rw [topOperators,length_take]
  split
  · next hle => exact ⟨n,le_rfl,min_eq_left ((oddArms_cases n).1.trans hle)⟩
  · next hlt => exact ⟨_,Nat.le_of_not_le hlt,min_eq_left (oddArms_cases _).1⟩

theorem topOperators_nodup (P : Platform) (repSvc : Option ScoreView)
    (pool : List EndpointAddr) (n : Nat) :
    ((topOperators P repSvc pool n).map OperatorGroup.operator).Nodup := by
  have hp := (perm_insertionSort (fun a b : OperatorGroup => a.before b = true)
    (groupOperators P repSvc pool)).map OperatorGroup.operator
  exact (hp.nodup_iff.mpr (groupOperators_nodup P repSvc pool)).sublist
    ((take_sublist _ _).map _)

theorem topOperators_arms {P : Platform} {repSvc : Option ScoreView} {pool : List EndpointAddr}
    {header : GoString} (h : topOperators P repSvc pool (quorumSize header) ≠ []) :
    Arms (topOperators P repSvc pool (quorumSize header)) := by
  obtain ⟨-,hm,-⟩ := quorumSize_bounds header
  obtain ⟨k,hk,hl⟩ := length_topOperators P repSvc pool (quorumSize header)
  obtain ⟨hle,ho⟩ := oddArms_cases k
  refine ⟨h,?_,?_,topOperators_nodup P repSvc pool _⟩
  · rw [hl]
    exact hle.trans (hk.trans hm)
  · rwa [hl]

theorem QuorumRequest.plan_arms {P : Platform} {q : QuorumRequest} {mode : QuorumMode}
    {outcome : GoString} {groups : List OperatorGroup}
    (h : q.plan P = .runs mode outcome groups) : Arms groups := by
  have hla : ∀ m o, q.launch P m o = .runs mode outcome groups → Arms groups := by
    intro m o hl
    unfold launch at hl
    split at hl
    · cases hl
    · dsimp only at hl
      split at hl
      · cases hl
      · next hne =>
        cases hl
        exact topOperators_arms hne
  unfold plan at h
  split at h
  · cases h
  · split at h
    · cases h
    · split at h
      · cases h
      · split at h
        · exact hla _ _ h
        · exact hla _ _ h

structure Ballot where
  res : ArmResult
  owners : Owners

namespace Ballot

variable (P : Platform) {D : Type} (sha256 : Json.Bytes → D) (b : Ballot)

def operator : GoString := b.res.ctx.endpoint.operator P

def owner? : Option GoString :=
  let owner := b.owners.dedicatedOwner (b.operator P)
  if owner ≠ [] ∧ owner = b.res.ctx.endpoint.owner b.owners then some owner else none

def digest : Option D := b.res.ctx.response.map (answerDigest sha256)

end Ballot

def Unaffiliated (P : Platform) (a b : Ballot) : Prop :=
  (a.operator P = b.operator P → a.operator P = []) ∧
    ∀ owner, a.owner? P = some owner → b.owner? P ≠ some owner

section Voices

variable {P : Platform} {a : Affiliates} {b c : Ballot} {l : List Ballot}

structure Hears (P : Platform) (a : Affiliates) (l : List Ballot) : Prop where
  operators : ∀ op, a.operators.has op = true ↔ op ≠ [] ∧ ∃ b ∈ l, b.operator P = op
  owners : ∀ owner, a.owners.has owner = true ↔ ∃ b ∈ l, b.owner? P = some owner

theorem has_put_unit {m : GoMap GoString Unit} {k j : GoString} :
    (m.put k ()).has j = true ↔ m.has j = true ∨ k = j := by
  simp [has,get_put]
  split_ifs with h
  · simp [h]
  · simp [Ne.symm h]

theorem hears_empty : Hears P ⟨∅,∅⟩ [] := by
  constructor <;> intro k <;> simp [has]

theorem has_operators_add (op : GoString) :
    (a.add P b.owners b.res.ctx.endpoint).operators.has op = true ↔
      a.operators.has op = true ∨ op ≠ [] ∧ b.operator P = op := by
  by_cases hop : b.operator P = []
  · have ha : (a.add P b.owners b.res.ctx.endpoint).operators = a.operators := if_pos hop
    rw [ha]
    exact ⟨.inl,fun h => h.elim id fun ⟨hne,he⟩ => absurd (he.symm.trans hop) hne⟩
  · have ha : (a.add P b.owners b.res.ctx.endpoint).operators =
        a.operators.put (b.operator P) () := if_neg hop
    rw [ha,has_put_unit]
    exact or_congr_right ⟨fun he => ⟨he ▸ hop,he⟩,And.right⟩

theorem has_owners_add (owner : GoString) :
    (a.add P b.owners b.res.ctx.endpoint).owners.has owner = true ↔
      a.owners.has owner = true ∨ b.owner? P = some owner := by
  by_cases ho : b.owners.dedicatedOwner (b.operator P) ≠ [] ∧
      b.owners.dedicatedOwner (b.operator P) = b.res.ctx.endpoint.owner b.owners
  · have ha : (a.add P b.owners b.res.ctx.endpoint).owners =
        a.owners.put (b.owners.dedicatedOwner (b.operator P)) () := if_pos ho
    have how : b.owner? P = some (b.owners.dedicatedOwner (b.operator P)) := if_pos ho
    rw [ha,has_put_unit,how,some_inj]
  · have ha : (a.add P b.owners b.res.ctx.endpoint).owners = a.owners := if_neg ho
    have how : b.owner? P = none := if_neg ho
    rw [ha,how]
    simp

theorem Hears.add (h : Hears P a l) :
    Hears P (a.add P b.owners b.res.ctx.endpoint) (l ++ [b]) := by
  constructor
  · intro op
    rw [has_operators_add,h.operators op]
    simp only [mem_append,mem_singleton,or_and_right,exists_or,exists_eq_left,
      and_or_left]
  · intro owner
    rw [has_owners_add,h.owners owner]
    simp

theorem Hears.unaffiliated (h : Hears P a l) (hb : b ∈ l)
    (hc : a.contains P c.owners c.res.ctx.endpoint = false) : Unaffiliated P b c := by
  obtain ⟨hop,how⟩ := Bool.or_eq_false_iff.mp hc
  constructor
  · intro heq
    by_contra hne
    have hh : a.operators.has (c.operator P) = true :=
      (h.operators _).mpr ⟨heq ▸ hne,b,hb,heq⟩
    exact absurd hh (Bool.eq_false_iff.mp hop)
  · intro owner hbo hco
    have hh : a.owners.has owner = true := (h.owners owner).mpr ⟨b,hb,hbo⟩
    obtain ⟨⟨hne,ho⟩,heq⟩ := ite_none_right_eq_some.mp hco
    cases heq
    exact of_decide_eq_false how ⟨hne,hh,ho⟩

end Voices

namespace QuorumWait

variable {D : Type} [DecidableEq D] {sha256 : Json.Bytes → D} {P : Platform}
  {s s' : QuorumWait D} {l : List Ballot} {r : ArmResult}

structure Counted (sha256 : Json.Bytes → D) (P : Platform) (s : QuorumWait D)
    (l : List Ballot) : Prop where
  hears : Hears P s.voters l
  votes : ∀ d, (s.votes.get d).getD [] =
    (l.filter fun b => b.digest sha256 = some d).map Ballot.res
  unaffiliated : l.Pairwise (Unaffiliated P)
  received : ∀ b ∈ l, s.done[b.res.index]? = some (some b.res)
  answered : ∀ b ∈ l, b.res.err = none
  distinct : (l.map fun b => b.res.index).Nodup

structure Majority (sha256 : Json.Bytes → D) (P : Platform) (s : QuorumWait D)
    (ballots : List Ballot) : Prop where
  most : s.groups.length < 2 * ballots.length
  distinct : (ballots.map fun b => b.res.index).Nodup
  received : ∀ b ∈ ballots, s.done[b.res.index]? = some (some b.res)
  answered : ∀ b ∈ ballots, b.res.err = none
  unaffiliated : ballots.Pairwise (Unaffiliated P)
  agreed : ∃ resp, s.ctx.response = some resp ∧
    (∀ b ∈ ballots, ∃ x, b.res.ctx.response = some x ∧
      answerDigest sha256 x = answerDigest sha256 resp) ∧
    ∃ b ∈ ballots, b.res.ctx.response = some resp

theorem counted_start (mode : QuorumMode) (outcome : GoString) (groups : List OperatorGroup)
    (ctx : RelayContext Response) :
    Counted sha256 P (start mode outcome groups ctx : QuorumWait D) [] where
  hears := hears_empty
  votes _ := rfl
  unaffiliated := List.Pairwise.nil
  received := forall_mem_nil _
  answered := forall_mem_nil _
  distinct := nodup_nil

section

variable (h : Counted sha256 P s l)

include h

theorem Counted.of_eq (hv : s'.voters = s.voters)
    (hvo : s'.votes = s.votes) (hd : s'.done = s.done) : Counted sha256 P s' l where
  __ := h
  hears := hv ▸ h.hears
  votes := hvo ▸ h.votes
  received := hd ▸ h.received

theorem Counted.fresh (hr : s.done[r.index]? = some none) : ∀ b ∈ l, b.res.index ≠ r.index := by
  intro b hb he
  have hd := h.received b hb
  rw [he,hr] at hd
  cases hd

theorem Counted.arrive (hr : s.done[r.index]? = some none)
    (hv : s'.voters = s.voters) (hvo : s'.votes = s.votes)
    (hd : s'.done = s.done.set r.index (some r)) : Counted sha256 P s' l where
  __ := h
  hears := hv ▸ h.hears
  votes := hvo ▸ h.votes
  received := by
    intro b hb
    rw [hd,List.getElem?_set_ne (h.fresh hr b hb).symm]
    exact h.received b hb

theorem Counted.cast {b : Ballot} {resp : Response}
    (hn : ∀ c ∈ l, c.res.index ≠ b.res.index) (hdo : s.done[b.res.index]? = some (some b.res))
    (her : b.res.err = none) (hr : b.res.ctx.response = some resp)
    (hc : s.voters.contains P b.owners b.res.ctx.endpoint = false)
    (hv : s'.voters = s.voters.add P b.owners b.res.ctx.endpoint)
    (hvo : s'.votes = s.votes.put (answerDigest sha256 resp)
      ((s.votes.get (answerDigest sha256 resp)).getD [] ++ [b.res]))
    (hk : s'.done = s.done) : Counted sha256 P s' (l ++ [b]) where
  hears := hv ▸ h.hears.add
  votes := by
    intro d
    have hdi : b.digest sha256 = some (answerDigest sha256 resp) := by
      rw [Ballot.digest,hr,map_some]
    rw [hvo,get_put,filter_append,map_append,← h.votes d]
    split_ifs with hd
    · subst hd
      simp [hdi]
    · have hne : ¬ some (answerDigest sha256 resp) = some d := fun he => hd (some.inj he).symm
      simp only [filter_cons,hdi,decide_eq_false hne,Bool.false_eq_true,if_false,
        filter_nil,map_nil,append_nil]
  unaffiliated := by
    refine pairwise_append.mpr ⟨h.unaffiliated,pairwise_singleton _ _,?_⟩
    intro c hcl d hd
    cases mem_singleton.mp hd
    exact h.hears.unaffiliated hcl hc
  received := by
    rw [hk]
    intro c hcl
    rcases mem_append.mp hcl with hcl | hcl
    · exact h.received c hcl
    · cases mem_singleton.mp hcl
      exact hdo
  answered := by
    intro c hcl
    rcases mem_append.mp hcl with hcl | hcl
    · exact h.answered c hcl
    · cases mem_singleton.mp hcl
      exact her
  distinct := by
    rw [map_append,nodup_append]
    refine ⟨h.distinct,nodup_singleton _,?_⟩
    intro i hi j hj
    obtain ⟨c,hcl,rfl⟩ := List.mem_map.mp hi
    cases mem_singleton.mp hj
    exact hn c hcl

theorem Counted.majority {b : Ballot} {resp : Response}
    (hb : b ∈ l) (hr : b.res.ctx.response = some resp)
    (hn : s.need ≤ ((s.votes.get (answerDigest sha256 resp)).getD []).length)
    (hg : s'.groups = s.groups) (hd : s'.done = s.done)
    (hct : s'.ctx.response = b.res.ctx.response) :
    ∃ ballots, Majority sha256 P s' ballots := by
  refine ⟨l.filter fun b => b.digest sha256 = some (answerDigest sha256 resp),?_⟩
  have hs : (l.filter fun b => b.digest sha256 = some (answerDigest sha256 resp)).Sublist l :=
    filter_sublist
  constructor
  · rw [h.votes,length_map,need] at hn
    rw [hg]
    omega
  · exact h.distinct.sublist (hs.map _)
  · rw [hd]
    exact fun c hc => h.received c (hs.subset hc)
  · exact fun c hc => h.answered c (hs.subset hc)
  · exact h.unaffiliated.sublist hs
  · refine ⟨resp,hct.trans hr,?_,b,?_,hr⟩
    · intro c hc
      have hdi := of_decide_eq_true (mem_filter.mp hc).2
      obtain ⟨x,hx,he⟩ := map_eq_some_iff.mp hdi
      exact ⟨x,hx,he⟩
    · refine mem_filter.mpr ⟨hb,decide_eq_true ?_⟩
      rw [Ballot.digest,hr,map_some]

end

def Answered (sha256 : Json.Bytes → D) (P : Platform) (s : QuorumWait D) : QuorumReply → Prop
  | .majority => s.mode = .consensus ∧ ∃ ballots, Majority sha256 P s ballots
  | .envelope e => e = collectEnvelope s.groups s.done
  | .failed err => ∃ e, s.ended = some e ∧ err = ctxDoneError e ∧ s.answered = 0

structure Sound (sha256 : Json.Bytes → D) (P : Platform) (mode : QuorumMode)
    (groups : List OperatorGroup) (s : QuorumWait D) : Prop where
  mode_eq : s.mode = mode
  groups_eq : s.groups = groups
  arms : s.done.length = groups.length
  tally : ∃ l, Counted sha256 P s l
  silent : s.answered = 0 → ∀ r, some r ∈ s.done → r.err ≠ none ∨ r.ctx.response = none
  replied : ∀ reply ∈ s.reply, Answered sha256 P s reply

variable {mode : QuorumMode} {groups : List OperatorGroup}

theorem sound_start (outcome : GoString) (ctx : RelayContext Response) :
    Sound sha256 P mode groups (start mode outcome groups ctx : QuorumWait D) where
  mode_eq := rfl
  groups_eq := rfl
  arms := length_replicate
  tally := ⟨[],counted_start mode outcome groups ctx⟩
  silent _ r hr := by cases eq_of_mem_replicate hr
  replied := by
    nofun

section

variable (h : Sound sha256 P mode groups s)

include h

theorem vote_sound {owners : Owners} {resp : Response}
    (hm : s.mode = .consensus) (hn : s.reply = none) (ha : s.answered ≠ 0)
    (hl : Counted sha256 P s l) (hne : ∀ c ∈ l, c.res.index ≠ r.index)
    (hd : s.done[r.index]? = some (some r)) (he : r.err = none)
    (hre : r.ctx.response = some resp) :
    Sound sha256 P mode groups (s.vote sha256 P owners r resp) := by
  unfold vote
  split
  · exact h
  next hc =>
  have hca : Counted sha256 P { s with
      voted := s.voted + 1, voters := s.voters.add P owners r.ctx.endpoint
      votes := s.votes.put (answerDigest sha256 resp)
        ((s.votes.get (answerDigest sha256 resp)).getD [] ++ [r]) } (l ++ [⟨r,owners⟩]) :=
    hl.cast hne hd he hre (Bool.eq_false_iff.mpr hc) rfl rfl rfl
  dsimp only
  split
  · exact ⟨h.mode_eq,h.groups_eq,h.arms,⟨_,hca⟩,fun h0 => absurd h0 ha,by
      rw [hn]
      intro reply hr
      cases hr⟩
  · next hle =>
    refine ⟨h.mode_eq,h.groups_eq,h.arms,⟨_,hca.of_eq rfl rfl rfl⟩,fun h0 => absurd h0 ha,?_⟩
    rintro reply ⟨⟩
    refine ⟨hm,hca.majority (mem_append_right _ (.head _)) hre ?_ rfl rfl rfl⟩
    rw [get_put_self]
    exact Nat.le_of_not_lt hle

theorem receive_sound {owners : Owners}
    (hn : s.reply = none) (hf : s.done[r.index]? = some none) :
    Sound sha256 P mode groups (s.receive sha256 P owners r) := by
  obtain ⟨l,hl⟩ := h.tally
  have hset : (s.done.set r.index (some r))[r.index]? = some (some r) :=
    List.getElem?_set_self (List.getElem?_eq_some_iff.mp hf).1
  have ha : (s.done.set r.index (some r)).length = groups.length :=
    length_set.trans h.arms
  have hr : ∀ t : QuorumWait D, t.reply = s.reply → ∀ reply ∈ t.reply,
      Answered sha256 P t reply := by
    intro t ht reply hre
    rw [ht,hn] at hre
    cases hre
  unfold receive
  dsimp only
  split
  · next resp he hrs =>
    have hc : Sound sha256 P mode groups { s with
        done := s.done.set r.index (some r), received := s.received + 1
        answered := s.answered + 1 } :=
      ⟨h.mode_eq,h.groups_eq,ha,⟨l,hl.arrive hf rfl rfl rfl⟩,
        fun h0 => absurd h0 (Nat.succ_ne_zero _),hr _ rfl⟩
    split
    · next hm =>
      exact vote_sound hc hm hn (Nat.succ_ne_zero _) (hl.arrive hf rfl rfl rfl)
        (hl.fresh hf) hset he hrs
    · exact hc
  · next hu =>
    refine ⟨h.mode_eq,h.groups_eq,ha,⟨l,hl.arrive hf rfl rfl rfl⟩,?_,hr _ rfl⟩
    intro h0 r' hr'
    rcases mem_or_eq_of_mem_set hr' with hr' | hr'
    · exact h.silent h0 r' hr'
    · cases hr'
      cases he : r.err with
      | some e => exact .inl nofun
      | none =>
        cases hrs : r.ctx.response with
        | none => exact .inr rfl
        | some resp => exact absurd hrs (hu resp he)

theorem collect_sound : Sound sha256 P mode groups s.collect := by
  obtain ⟨l,hl⟩ := h.tally
  refine { h with tally := ⟨l,hl.of_eq rfl rfl rfl⟩, replied := ?_ }
  rintro reply ⟨⟩
  rfl

theorem conclude_sound : Sound sha256 P mode groups s.conclude := by
  unfold conclude
  split
  · next e he =>
    split
    · next h0 =>
      obtain ⟨l,hl⟩ := h.tally
      refine { h with tally := ⟨l,hl.of_eq rfl rfl rfl⟩, replied := ?_ }
      rintro reply ⟨⟩
      exact ⟨e,he,rfl,h0⟩
    · exact collect_sound h
  · exact collect_sound h

theorem ended_sound (hn : s.ended = none) (e : ContextEnd) :
    Sound sha256 P mode groups { s with ended := some e } := by
  obtain ⟨l,hl⟩ := h.tally
  refine { h with tally := ⟨l,hl.of_eq rfl rfl rfl⟩, replied := ?_ }
  intro reply hr
  have ha := h.replied reply hr
  cases reply with
  | majority =>
    obtain ⟨hm,ballots,hb⟩ := ha
    exact ⟨hm,ballots,{ hb with }⟩
  | envelope env => exact ha
  | failed err =>
    obtain ⟨e',he,-⟩ := ha
    cases hn.symm.trans he

theorem sound_step {a : QuorumAct}
    (hs : s.step sha256 P a = some s') : Sound sha256 P mode groups s' := by
  cases a with
  | receive r owners =>
    obtain ⟨hok,rfl⟩ := Run.guard_pos hs
    simp only [Bool.and_eq_true,Option.any_eq_true,isNone_iff_eq_none] at hok
    obtain ⟨⟨hn,-⟩,slot,hsl,rfl⟩ := hok
    exact receive_sound h hn hsl
  | contextEnds e =>
    obtain ⟨hok,rfl⟩ := Run.guard_pos hs
    exact ended_sound h (isNone_iff_eq_none.mp hok) e
  | leave =>
    obtain ⟨-,rfl⟩ := Run.guard_pos hs
    exact conclude_sound h

end

theorem quorum_answers_by_an_independent_majority (P : Platform) (q : QuorumRequest)
    (outcome : GoString) (ctx : RelayContext Response)
    (hplan : q.plan P = .runs mode outcome groups)
    (hs : Run.Reaches (step sha256 P) (fun _ _ => True) (start mode outcome groups ctx) s)
    (reply : QuorumReply) (hr : s.reply = some reply) :
    Arms groups ∧ s.groups = groups ∧ s.done.length = groups.length ∧
      ((reply = .majority ∧ mode = .consensus ∧ ∃ ballots, Majority sha256 P s ballots) ∨
        (∃ e, reply = .envelope e ∧ e.count = groups.length ∧
          e.responses.length = groups.length) ∨
        ∃ e, reply = .failed (ctxDoneError e) ∧ s.ended = some e ∧
          ∀ r, some r ∈ s.done → r.err ≠ none ∨ r.ctx.response = none) := by
  have hso : Sound sha256 P mode groups s :=
    hs.invariant _ (sound_start outcome ctx) fun t a t' ht _ hst => sound_step ht hst
  refine ⟨QuorumRequest.plan_arms hplan,hso.groups_eq,hso.arms,?_⟩
  have ha := hso.replied reply hr
  cases reply with
  | majority => exact .inl ⟨rfl,hso.mode_eq ▸ ha.1,ha.2⟩
  | envelope e =>
    refine .inr (.inl ⟨e,rfl,?_,?_⟩)
    · rw [ha,← hso.groups_eq]
      rfl
    · rw [ha,collectEnvelope,length_zipWith,hso.groups_eq,hso.arms,min_self]
  | failed err =>
    obtain ⟨e,he,rfl,h0⟩ := ha
    exact .inr (.inr ⟨e,rfl,he,hso.silent h0⟩)

def hostAlpha : EndpointAddr := "supplierA-https://rpc.alpha.net".toList

def hostBeta : EndpointAddr := "supplierB-https://rpc.beta.net".toList

def hostGamma : EndpointAddr := "supplierC-https://rpc.gamma.net".toList

def threeOperators : QuorumRequest where
  countHeader := "4".toList
  modeHeader := []
  enabled := true
  payloads := 1
  isGRPC := false
  isImmutable := true
  pool := .ok [hostBeta,hostAlpha,hostGamma]
  repSvc := none

def threeArms : List OperatorGroup :=
  [⟨"alpha.net".toList,[hostAlpha],false,-1⟩,⟨"beta.net".toList,[hostBeta],false,-1⟩,
    ⟨"gamma.net".toList,[hostGamma],false,-1⟩]

def asked : RelayContext Response := ⟨some 3000,[],[],none,none,none,[],[]⟩

def answeredBy (index : Nat) (ep : EndpointAddr) (body : String) : QuorumAct :=
  .receive ⟨index,{ asked with endpoint := ep, response := some ⟨Json.ascii body,0⟩ },none⟩ .new

-- The arm of beta was handed the whole pool and is answered by alpha's endpoint.
def twoVoices : List QuorumAct :=
  [answeredBy 0 hostAlpha "[1]",answeredBy 1 hostAlpha "[1]",answeredBy 2 hostGamma " [1]"]

def report (s : QuorumWait Json.Bytes) : Option QuorumReply × Option Response × Nat :=
  (s.reply,s.ctx.response,s.voted)

theorem two_operators_outvote_a_repeated_voice :
    ∃ s : QuorumWait Json.Bytes, report s = (some .majority,some ⟨Json.ascii " [1]",0⟩,2) ∧
      ∃ ballots, Majority id asciiPlatform s ballots := by
  have hp : threeOperators.plan asciiPlatform = .runs .consensus [] threeArms := by
    decide +kernel
  have hru : (Run.run (step id asciiPlatform) (fun _ _ => True)
      (start .consensus [] threeArms asked) twoVoices).map report =
        some (some .majority,some ⟨Json.ascii " [1]",0⟩,2) := by decide +kernel
  obtain ⟨s,hs,hre⟩ := map_eq_some_iff.mp hru
  have hr : s.reply = some .majority := congrArg Prod.fst hre
  obtain ⟨-,-,-,⟨-,-,hm⟩ | ⟨e,he,-⟩ | ⟨e,he,-⟩⟩ :=
    quorum_answers_by_an_independent_majority asciiPlatform threeOperators [] asked hp
      (Run.Reaches.start.run hs) .majority hr
  · exact ⟨s,hre,hm⟩
  · cases he
  · cases he

theorem context_end_before_any_answer_is_an_error :
    threeOperators.plan asciiPlatform = .runs .consensus [] threeArms ∧
      (Run.run (step id asciiPlatform) (fun _ _ => True)
        (start .consensus [] threeArms asked) [.contextEnds .deadlineExceeded,.leave]).map
          report = some (some (.failed (.newRelayError .transport
            "hedge: attempt deadline exceeded".toList
            (some ContextEnd.deadlineExceeded.err) true)),none,0) := by
  decide +kernel

end QuorumWait

end SageGateway
