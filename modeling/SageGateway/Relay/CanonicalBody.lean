import SageGateway.Lib.Json.Compact

namespace SageGateway

open Json

def dropEnvelope : Value → Value
  | .object ms => .object (delete (delete ms "id".toList) "jsonrpc".toList)
  | v => v

def canonicalBody (body : Bytes) : Bytes :=
  match decode body with
  | none => body
  | some (v,rest) => if more rest then body else encode (dropEnvelope v)

def OneValue (body : Bytes) (v : Value) : Prop := ∃ rest, Reads body v rest ∧ skip rest = []

def SameAnswer (v w : Value) : Prop := dropEnvelope v = dropEnvelope w

-- More reads a closing bracket as the end of an enclosing array or object.
def strayClose (rest : Bytes) : Bool :=
  match skip rest with
  | [] => false
  | c :: _ => c == 93 || c == 125

def closesEarly (body : Bytes) : Bool := (decode body).any fun r => strayClose r.2

theorem more_eq_false {rest : Bytes} (h : strayClose rest = false) :
    more rest = false ↔ skip rest = [] := by
  unfold strayClose at h
  unfold more
  cases hs : skip rest with
  | nil => simp
  | cons c cs =>
    simp [hs] at h ⊢
    grind

theorem canonical_delete {ms : List (Key × Value)} (h : (Value.object ms).Canonical) (k : Key) :
    (Value.object (delete ms k)).Canonical := by
  refine ⟨h.1.filter _,membersCanonical_iff.mpr fun p hp => ?_⟩
  exact membersCanonical_iff.mp h.2 p (List.mem_of_mem_filter hp)

variable {body : Bytes} {v : Value}

theorem canonical_dropEnvelope (h : v.Canonical) : (dropEnvelope v).Canonical := by
  cases v with
  | object ms => exact canonical_delete (canonical_delete h _) _
  | null | bool b | number lit | string s | array vs => exact h

theorem canonicalBody_of_oneValue (h : OneValue body v) :
    canonicalBody body = encode (dropEnvelope v) := by
  obtain ⟨rest,hr,hs⟩ := h
  have hm : more rest = false := by rw [more,hs]
  simp [canonicalBody,decode_iff.mpr hr,hm]

theorem oneValue_or_raw (h : closesEarly body = false) :
    (∃ v, OneValue body v) ∨ canonicalBody body = body := by
  unfold canonicalBody
  unfold closesEarly at h
  cases hd : decode body with
  | none => exact .inr rfl
  | some r =>
    obtain ⟨v,rest⟩ := r
    rw [hd] at h
    cases hm : more rest with
    | true => exact .inr (by simp [hm])
    | false => exact .inl ⟨v,rest,decode_iff.mp hd,(more_eq_false h).mp hm⟩

theorem oneValue_encode (h : v.Canonical) : OneValue (encode v) v :=
  ⟨[],reads_encode h,rfl⟩

theorem OneValue.canonical (h : OneValue body v) : v.Canonical := by
  obtain ⟨rest,hr,-⟩ := h
  exact hr.canonical

theorem dropEnvelope_idem (v : Value) : dropEnvelope (dropEnvelope v) = dropEnvelope v := by
  cases v with
  | object ms =>
    simp only [dropEnvelope,delete,List.filter_filter]
    congr 2
    funext p
    cases decide (p.1 ≠ "jsonrpc".toList) <;> cases decide (p.1 ≠ "id".toList) <;> rfl
  | null | bool b | number lit | string s | array vs => rfl

theorem sameAnswer_of_eq (hv : v.Canonical)
    (h : body = encode (dropEnvelope v)) :
    OneValue body (dropEnvelope v) ∧ SameAnswer (dropEnvelope v) v := by
  subst h
  exact ⟨oneValue_encode (canonical_dropEnvelope hv),dropEnvelope_idem v⟩

theorem same_canonical_body_iff_same_answer {a b : Bytes} (ha : closesEarly a = false)
    (hb : closesEarly b = false) :
    (canonicalBody a = canonicalBody b ↔
      a = b ∨ ∃ v w, OneValue a v ∧ OneValue b w ∧ SameAnswer v w) ∧
    ∀ v rest w, Reads a v rest → skip rest ≠ [] → OneValue b w →
      canonicalBody a ≠ canonicalBody b := by
  have hif : canonicalBody a = canonicalBody b ↔
      a = b ∨ ∃ v w, OneValue a v ∧ OneValue b w ∧ SameAnswer v w := by
    constructor
    · intro h
      rcases oneValue_or_raw ha with ⟨v,hv⟩ | hrw
      · rcases oneValue_or_raw hb with ⟨w,hw⟩ | hra
        · rw [canonicalBody_of_oneValue hv,canonicalBody_of_oneValue hw] at h
          exact .inr ⟨v,w,hv,hw,encode_injective (canonical_dropEnvelope hv.canonical)
            (canonical_dropEnvelope hw.canonical) h⟩
        · rw [canonicalBody_of_oneValue hv,hra] at h
          obtain ⟨hw,hsa⟩ := sameAnswer_of_eq hv.canonical h.symm
          exact .inr ⟨v,_,hv,hw,hsa.symm⟩
      · rcases oneValue_or_raw hb with ⟨w,hw⟩ | hra
        · rw [hrw,canonicalBody_of_oneValue hw] at h
          obtain ⟨hv,hsa⟩ := sameAnswer_of_eq hw.canonical h
          exact .inr ⟨_,w,hv,hw,hsa⟩
        · exact .inl (by rw [← hrw,h,hra])
    · rintro (rfl | ⟨v,w,hv,hw,hsa⟩)
      · rfl
      · rw [canonicalBody_of_oneValue hv,canonicalBody_of_oneValue hw,hsa]
  refine ⟨hif,?_⟩
  intro v rest w hr ht hw h
  -- Reading is a function of the bytes, so a body with a tail is never one value.
  have hn : ∀ u, ¬ OneValue a u := by
    rintro u ⟨rest',hr',hs⟩
    have heq := (decode_iff.mpr hr).symm.trans (decode_iff.mpr hr')
    cases heq
    exact ht hs
  rcases hif.mp h with rfl | ⟨u,_,hu,_,_⟩
  · exact hn w hw
  · exact hn u hu

def answered : Bytes := ascii "\x7b\"jsonrpc\":\"2.0\",\"id\":1,\"result\":[1.0, \"0x1\"]\x7d"

def reordered : Bytes := ascii "\x7b\"result\":[1.0,\"\\u0030x1\"],\"id\":\"x\"\x7d\n"

def withStrayClose : Bytes := ascii "\x7b\"result\":[1.0,\"0x1\"]\x7d]garbage"

theorem reordered_answer_counts_as_the_same :
    closesEarly answered = false ∧ closesEarly reordered = false ∧ answered ≠ reordered ∧
      ∃ v w, OneValue answered v ∧ OneValue reordered w ∧ SameAnswer v w := by
  have ha : closesEarly answered = false := by decide +kernel
  have hb : closesEarly reordered = false := by decide +kernel
  have hne : answered ≠ reordered := by decide +kernel
  have heq : canonicalBody answered = canonicalBody reordered := by decide +kernel
  refine ⟨ha,hb,hne,?_⟩
  rcases (same_canonical_body_iff_same_answer ha hb).1.mp heq with h | h
  · exact absurd h hne
  · exact h

theorem garbage_after_a_closing_bracket_is_voted_with_the_answer :
    canonicalBody withStrayClose = canonicalBody answered ∧ withStrayClose ≠ answered ∧
      ∀ v, ¬ OneValue withStrayClose v := by
  refine ⟨by decide +kernel,by decide +kernel,?_⟩
  rintro v ⟨rest,hr,hs⟩
  have hre : (decode withStrayClose).map Prod.snd = some (ascii "]garbage") := by
    decide +kernel
  rw [decode_iff.mpr hr] at hre
  cases hre
  revert hs
  decide

end SageGateway
