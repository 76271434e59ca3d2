import SageGateway.Relay.Quorum
import SageGateway.Lib.GoBytes

namespace SageGateway.GrpcWeb

open List
open Json (Bytes ascii)
open GoBytes (trimSpace runes)

def grpcFrameHeaderLen : Nat := 5

def grpcTrailerFlag : UInt8 := 0x80

-- binary.BigEndian.PutUint32 of a length converted to uint32
def putUint32 (n : Nat) : Bytes :=
  [n / 2 ^ 24,n / 2 ^ 16,n / 2 ^ 8,n].map UInt8.ofNat

def uint32 (bs : Bytes) : Nat := bs.foldl (fun n b => n * 256 + b.toNat) 0

def encodeGRPCFrame (flag : UInt8) (msg : Bytes) : Bytes := flag :: (putUint32 msg.length ++ msg)

def Token (s : Bytes) : Prop :=
  ∀ c ∈ s, 32 < c.toNat ∧ c.toNat < 127 ∧ ¬(65 ≤ c.toNat ∧ c.toNat ≤ 90)

-- strings.ToLower on byte strings, as far as the proofs need it.
structure Strings where
  toLower : Bytes → Bytes
  toLower_token : ∀ s, Token s → toLower s = s

instance (s : Bytes) : Decidable (Token s) := inferInstanceAs (Decidable (∀ _ ∈ _, _))

def onHead (c : UInt8) : List Bytes → List Bytes
  | [] => [[c]]
  | l :: ls => (c :: l) :: ls

def splitCRLF : Bytes → List Bytes
  | [] => [[]]
  | [c] => [[c]]
  | c :: d :: rest =>
      if c = 13 ∧ d = 10 then [] :: splitCRLF rest else onHead c (splitCRLF (d :: rest))

def cutColon (line : Bytes) : Option (Bytes × Bytes) :=
  if 58 ∈ line then some (line.takeWhile (· ≠ 58),(line.dropWhile (· ≠ 58)).tail) else none

variable (S : Strings)

def trailerLines (payload : Bytes) : List (Bytes × Bytes) :=
  (splitCRLF payload).filterMap fun line =>
    (cutColon line).map fun kv => (S.toLower (trimSpace kv.1),trimSpace kv.2)

def parseGRPCTrailers (payload : Bytes) : GoMap Bytes Bytes :=
  (trailerLines S payload).foldl (fun out kv => out.put kv.1 kv.2) ∅

inductive DecodeError where
  | truncatedHeader (off : Nat)
  | claims (off size remain : Nat)

structure Decoded where
  message : Option Bytes
  trailers : Option (GoMap Bytes Bytes)

def Decoded.add (r : Decoded) (frame : UInt8 × Bytes) : Decoded :=
  if frame.1 &&& grpcTrailerFlag ≠ 0 then { r with trailers := some (parseGRPCTrailers S frame.2) }
  else if r.message = none then { r with message := some frame.2 }
  else r

-- A slice expression; none is the panic on an index out of bounds.
def slice (bs : Bytes) (i j : Nat) : Option Bytes :=
  if i ≤ j ∧ j ≤ bs.length then some ((bs.drop i).take (j - i)) else none

def decodeLoop (body : Bytes) : Nat → Nat → Decoded → Option (Except DecodeError Decoded)
  | 0,_,r => some (.ok r)
  | fuel + 1,off,r =>
      if body.length ≤ off then some (.ok r)
      else if body.length < off + grpcFrameHeaderLen then some (.error (.truncatedHeader off))
      else
        body[off]?.bind fun flag =>
          (slice body (off + 1) (off + grpcFrameHeaderLen)).bind fun size =>
            let start := off + grpcFrameHeaderLen
            if body.length < start + uint32 size then
              some (.error (.claims off (uint32 size) (body.length - start)))
            else
              (slice body start (start + uint32 size)).bind fun payload =>
                decodeLoop body fuel (start + uint32 size) (r.add S (flag,payload))

def decodeGRPCWebResponse (body : Bytes) : Option (Except DecodeError Decoded) :=
  decodeLoop S body body.length 0 ⟨none,none⟩

structure HTTPResponse where
  statusCode : Nat
  body : Bytes
  grpcStatus : Bytes
  grpcMessage : Bytes

def statusKey : Bytes := ascii "grpc-status"

def messageKey : Bytes := ascii "grpc-message"

def text (raw : Bytes) : GoString := raw.map fun b => Char.ofNat b.toNat

def unsigned (s : GoString) : GoString :=
  if s.head? = some '-' ∨ s.head? = some '+' then s.tail else s

def isNumeral (s : GoString) : Bool := unsigned s ≠ [] && (decimal 0 (unsigned s)).isSome

-- strconv.Atoi with its error dropped: 0 for what is no number, the nearest int out of range.
def atoiValue (s : GoString) : Int :=
  match atoi s with
  | some n => n
  | none =>
      if isNumeral s then if s.head? = some '-' then -(maxInt : Int) - 1 else maxInt else 0

def countedStatus (r : Decoded) (resp : HTTPResponse) : Option Bytes :=
  match r.trailers.bind fun t => t.get statusKey with
  | some raw => some raw
  | none => if resp.grpcStatus = [] then none else some resp.grpcStatus

def grpcStatusFrom (r : Decoded) (resp : HTTPResponse) : Int × Bytes :=
  match r.trailers.bind fun t => t.get statusKey with
  | some raw => (atoiValue (text raw),(r.trailers.bind fun t => t.get messageKey).getD [])
  | none =>
      if resp.grpcStatus = [] then (0,[])
      else (atoiValue (text resp.grpcStatus),resp.grpcMessage)

inductive SendError where
  | httpStatus (code : Nat)
  | decode (err : DecodeError)
  | grpcStatus (code : Int) (message : Bytes)

def sendWeb (resp : HTTPResponse) : Option (Except SendError (Option Bytes)) :=
  if resp.statusCode ≠ 200 then some (.error (.httpStatus resp.statusCode))
  else (decodeGRPCWebResponse S resp.body).map fun
    | .error e => .error (.decode e)
    | .ok r =>
        let (st,msg) := grpcStatusFrom r resp
        if st ≠ 0 then .error (.grpcStatus st msg) else .ok r.message

section Frames

variable {S} {body rest payload : Bytes} {off : Nat}

theorem uint32_putUint32_mod (n : Nat) : uint32 (putUint32 n) = n % 2 ^ 32 := by
  simp [uint32,putUint32]
  omega

theorem uint32_putUint32 {n : Nat} (h : n < 2 ^ 32) : uint32 (putUint32 n) = n := by
  rw [uint32_putUint32_mod,Nat.mod_eq_of_lt h]

theorem slice_of_drop {i : Nat} (h : body.drop i = payload ++ rest) (hi : i ≤ body.length) :
    slice body i (i + payload.length) = some payload := by
  have hl := congrArg length h
  simp at hl
  rw [slice,if_pos ⟨by omega,by omega⟩,h,Nat.add_sub_cancel_left,take_left]

theorem decodeLoop_frame {flag : UInt8} (h : body.drop off = encodeGRPCFrame flag payload ++ rest)
    (hp : payload.length < 2 ^ 32) (fuel : Nat) (r : Decoded) :
    decodeLoop S body (fuel + 1) off r =
      decodeLoop S body fuel (off + (grpcFrameHeaderLen + payload.length))
        (r.add S (flag,payload)) ∧
    body.drop (off + (grpcFrameHeaderLen + payload.length)) = rest := by
  have hl := congrArg length h
  simp [encodeGRPCFrame,putUint32] at hl
  have hf : body[off]? = some flag := by
    rw [← head?_drop,h]
    rfl
  have h₁ : body.drop (off + 1) = putUint32 payload.length ++ (payload ++ rest) := by
    rw [← drop_drop,h]
    simp [encodeGRPCFrame]
  have h₅ : body.drop (off + grpcFrameHeaderLen) = payload ++ rest := by
    rw [show off + grpcFrameHeaderLen = off + 1 + (putUint32 payload.length).length from rfl,
      ← drop_drop,h₁,drop_left]
  refine ⟨?_,by rw [← Nat.add_assoc,← drop_drop,h₅,drop_left]⟩
  rw [decodeLoop,if_neg (by omega),if_neg (by simp [grpcFrameHeaderLen]; omega),hf,
    Option.bind_some,show off + grpcFrameHeaderLen = off + 1 + (putUint32 payload.length).length
      from rfl,slice_of_drop h₁ (by omega),Option.bind_some,uint32_putUint32 hp]
  rw [if_neg (by simp [putUint32]; omega),
    show off + 1 + (putUint32 payload.length).length = off + grpcFrameHeaderLen from rfl,
    slice_of_drop h₅ (by simp [grpcFrameHeaderLen]; omega),Option.bind_some,Nat.add_assoc]

def joined (frames : List (UInt8 × Bytes)) : Bytes :=
  frames.flatMap fun f => encodeGRPCFrame f.1 f.2

theorem decodeLoop_frames {frames : List (UInt8 × Bytes)} (hs : ∀ f ∈ frames, f.2.length < 2 ^ 32)
    {fuel : Nat} (h : body.drop off = joined frames) (hf : body.length ≤ fuel + off) (r : Decoded) :
    decodeLoop S body fuel off r = some (.ok (frames.foldl (Decoded.add S) r)) := by
  induction frames generalizing fuel off r with
  | nil =>
    have hl : body.length ≤ off := drop_eq_nil_iff.mp h
    cases fuel with
    | zero => rfl
    | succ fuel => rw [decodeLoop,if_pos hl]; rfl
  | cons f frames ih =>
    obtain ⟨hf₁,hs⟩ := forall_mem_cons.mp hs
    cases fuel with
    | zero =>
      cases (drop_eq_nil_iff.mpr (by omega)).symm.trans h
    | succ fuel =>
      obtain ⟨hstep,hd⟩ := decodeLoop_frame (S := S) h hf₁ fuel r
      rw [hstep,ih hs hd (by simp [grpcFrameHeaderLen]; omega)]
      rfl

theorem slice_eq {i j : Nat} (hij : i ≤ j) (hj : j ≤ body.length) :
    slice body i j = some ((body.drop i).take (j - i)) := if_pos ⟨hij,hj⟩

theorem putUint32_uint32 {bs : Bytes} (h : bs.length = 4) :
    putUint32 (uint32 bs) = bs ∧ uint32 bs < 2 ^ 32 := by
  match bs,h with
  | [a,b,c,d],_ =>
    have ha := a.toNat_lt
    have hb := b.toNat_lt
    have hc := c.toNat_lt
    have hd := d.toNat_lt
    simp [uint32,putUint32,cons.injEq,← UInt8.toNat_inj]
    omega

theorem decodeLoop_splits {fuel : Nat} (ho : off ≤ body.length) (hf : body.length ≤ fuel + off)
    (r : Decoded) : ∃ out, decodeLoop S body fuel off r = some out ∧ ∀ r', out = .ok r' →
      ∃ frames, body.drop off = joined frames ∧ (∀ f ∈ frames, f.2.length < 2 ^ 32) := by
  induction fuel generalizing off r with
  | zero =>
    refine ⟨_,rfl,fun _ _ => ⟨[],drop_eq_nil_iff.mpr (by omega),forall_mem_nil _⟩⟩
  | succ fuel ih =>
    rw [decodeLoop]
    split_ifs with hend hshort
    · exact ⟨_,rfl,fun _ _ => ⟨[],drop_eq_nil_iff.mpr hend,forall_mem_nil _⟩⟩
    · exact ⟨_,rfl,nofun⟩
    unfold grpcFrameHeaderLen at hshort ⊢
    rw [getElem?_eq_getElem (by omega),Option.bind_some,slice_eq (by omega) (by omega),
      Option.bind_some]
    dsimp only
    generalize hsz : (body.drop (off + 1)).take (off + 5 - (off + 1)) = size
    have hl : size.length = 4 := by
      rw [← hsz,length_take,length_drop]
      omega
    obtain ⟨hput,hsize⟩ := putUint32_uint32 hl
    split_ifs with hlong
    · exact ⟨_,rfl,nofun⟩
    rw [slice_eq (by omega) (by omega),Nat.add_sub_cancel_left]
    have hle : off + 5 + uint32 size ≤ body.length := by omega
    obtain ⟨out,hout,hok⟩ := ih hle (by omega) _
    refine ⟨out,hout,fun r' hr => ?_⟩
    obtain ⟨frames,hd,hs⟩ := hok r' hr
    have hp : ((body.drop (off + 5)).take (uint32 size)).length = uint32 size := by
      rw [length_take,length_drop]
      omega
    refine ⟨(body[off],(body.drop (off + 5)).take (uint32 size)) :: frames,?_,
      forall_mem_cons.mpr ⟨by rwa [hp],hs⟩⟩
    have h₁ : body.drop (off + 1) = size ++ body.drop (off + 5) := by
      have hr : body.drop (off + 5) = (body.drop (off + 1)).drop 4 := by
        rw [drop_drop]
      rw [← hsz,show off + 5 - (off + 1) = 4 by omega,hr,take_append_drop]
    rw [joined,flatMap_cons,← joined,← hd,encodeGRPCFrame,hp,hput,
      drop_eq_getElem_cons (by omega),h₁,← drop_drop]
    simp

theorem decode_joined {frames : List (UInt8 × Bytes)} (hs : ∀ f ∈ frames, f.2.length < 2 ^ 32) :
    decodeGRPCWebResponse S (joined frames) =
      some (.ok (frames.foldl (Decoded.add S) ⟨none,none⟩)) :=
  decodeLoop_frames hs rfl (Nat.le_refl _) _

theorem decode_splits (body : Bytes) : (∃ e, decodeGRPCWebResponse S body = some (.error e)) ∨
    ∃ frames, body = joined frames ∧
      decodeGRPCWebResponse S body = some (.ok (frames.foldl (Decoded.add S) ⟨none,none⟩)) := by
  obtain ⟨out,hout,hok⟩ :=
    decodeLoop_splits (S := S) (Nat.zero_le body.length) (Nat.le_refl _) ⟨none,none⟩
  cases out with
  | error e => exact .inl ⟨e,hout⟩
  | ok r =>
    obtain ⟨frames,hb,hs⟩ := hok r rfl
    obtain rfl : body = joined frames := hb
    exact .inr ⟨frames,rfl,decode_joined hs⟩

theorem atoi_of_value_zero {s : GoString} (hn : isNumeral s = true) (h : atoiValue s = 0) :
    atoi s = some 0 := by
  unfold atoiValue at h
  split at h
  · rename_i n hs
    rw [hs,h]
  · split_ifs at h <;> simp [maxInt] at h

theorem isNumeral_of_atoi {s : GoString} {n : Int} (h : atoi s = some n) : isNumeral s = true := by
  have hu : ∀ limit t m, atoiUnsigned limit t = some m → t ≠ [] ∧ (decimal 0 t).isSome := by
    intro limit t m ht
    rw [atoiUnsigned] at ht
    split_ifs at ht with hn
    exact ⟨hn,Option.isSome_iff_exists.mpr ⟨m,(Option.filter_eq_some_iff.mp ht).1⟩⟩
  cases s with
  | nil => cases h
  | cons c s =>
    rw [atoi] at h
    split_ifs at h with hm hp
    all_goals
      obtain ⟨_,h,-⟩ := Option.map_eq_some_iff.mp h
      obtain ⟨m,h,-⟩ := Option.bind_eq_some_iff.mp h
      have hd := hu _ _ _ h
      simp_all [isNumeral,unsigned]

theorem grpcStatusFrom_code (r : Decoded) (resp : HTTPResponse) : (grpcStatusFrom r resp).1 =
    ((countedStatus r resp).map fun raw => atoiValue (text raw)).getD 0 := by
  unfold grpcStatusFrom countedStatus
  split
  · rfl
  · split_ifs <;> rfl

end Frames

theorem web_decoding :
    (∀ flag m t, flag &&& grpcTrailerFlag ≠ 0 → m.length < 2 ^ 32 → t.length < 2 ^ 32 →
      decodeGRPCWebResponse S (encodeGRPCFrame 0 m ++ encodeGRPCFrame flag t) =
        some (.ok ⟨some m,some (parseGRPCTrailers S t)⟩)) ∧
    (∀ body, (∃ e, decodeGRPCWebResponse S body = some (.error e)) ∨
      ∃ frames, body = joined frames ∧
        decodeGRPCWebResponse S body = some (.ok (frames.foldl (Decoded.add S) ⟨none,none⟩))) ∧
    ∀ resp message, sendWeb S resp = some (.ok message) →
      ∃ r, decodeGRPCWebResponse S resp.body = some (.ok r) ∧ message = r.message ∧
        ((countedStatus r resp = none ∨
            ∃ raw, countedStatus r resp = some raw ∧ atoi (text raw) = some 0) ↔
          ∀ raw, countedStatus r resp = some raw → isNumeral (text raw) = true) := by
  refine ⟨fun flag m t hf hm ht => ?_,decode_splits,fun resp message h => ?_⟩
  · have hj : encodeGRPCFrame 0 m ++ encodeGRPCFrame flag t = joined [(0,m),(flag,t)] := by
      simp [joined]
    rw [hj,decode_joined (by simpa using ⟨hm,ht⟩)]
    simp [Decoded.add,hf]
  · rw [sendWeb] at h
    split_ifs at h with hok
    · cases h
    obtain ⟨out,hd,h⟩ := Option.map_eq_some_iff.mp h
    cases out with
    | error e => cases h
    | ok r =>
      dsimp only at h
      split_ifs at h with hz
      cases h
      refine ⟨r,hd,rfl,?_⟩
      cases hc : countedStatus r resp with
      | none => simp
      | some raw =>
        rw [not_not,grpcStatusFrom_code,hc] at hz
        simp only [Option.some.injEq,forall_eq',exists_eq_left',reduceCtorEq,false_or]
        exact ⟨isNumeral_of_atoi,fun hn => atoi_of_value_zero hn hz⟩

def plain : Strings := ⟨id,fun _ _ => rfl⟩

def answer (status : Bytes) : HTTPResponse :=
  ⟨200,encodeGRPCFrame 0 (ascii "m") ++ encodeGRPCFrame grpcTrailerFlag (statusKey ++ 58 :: status),
    [],[]⟩

theorem numeric_status_answered :
    sendWeb plain (answer (ascii "0")) = some (.ok (some (ascii "m"))) ∧
    ∃ r, decodeGRPCWebResponse plain (answer (ascii "0")).body = some (.ok r) ∧
      (countedStatus r (answer (ascii "0")) = none ∨
        ∃ raw, countedStatus r (answer (ascii "0")) = some raw ∧ atoi (text raw) = some 0) := by
  have hs : sendWeb plain (answer (ascii "0")) = some (.ok (some (ascii "m"))) := rfl
  obtain ⟨r,hd,_,hc⟩ := (web_decoding plain).2.2 _ _ hs
  refine ⟨hs,r,hd,hc.mpr fun raw hr => ?_⟩
  cases hd
  cases hr
  decide

theorem status_without_number_answered :
    sendWeb plain (answer (ascii "abc")) = some (.ok (some (ascii "m"))) ∧
      ∃ r, decodeGRPCWebResponse plain (answer (ascii "abc")).body = some (.ok r) ∧
        countedStatus r (answer (ascii "abc")) = some (ascii "abc") ∧
        atoi (text (ascii "abc")) = none :=
  ⟨rfl,_,rfl,rfl,by decide⟩

def crlf : Bytes := [13,10]

def digits (n : Nat) : Bytes := (Nat.toDigits 10 n).map fun c => UInt8.ofNat c.toNat

def itoa : Int → Bytes
  | .ofNat n => digits n
  | .negSucc n => 45 :: digits (n + 1)

def trailerBlock (code : Int) (message : Bytes) : Bytes :=
  statusKey ++ 58 :: itoa code ++ crlf ++
    if message = [] then [] else messageKey ++ 58 :: message ++ crlf

def encodeGRPCWebTrailers (code : Int) (message : Bytes) : Bytes :=
  grpcTrailerFlag :: (putUint32 (trailerBlock code message).length ++ trailerBlock code message)

structure Response where
  body : Bytes
  headers : Option (GoMap Bytes Bytes)

def Response.grpcStatus (r : Response) : Int × Bytes × Bool :=
  match r.headers.bind fun h => h.get statusKey with
  | none => (0,[],false)
  | some raw =>
      match atoi (text raw) with
      | none => (0,[],false)
      | some code => (code,(r.headers.bind fun h => h.get messageKey).getD [],true)

def finishGRPCResponse (requestType : Bytes) (r : Response) : Bytes :=
  let (code,message,_) := r.grpcStatus
  if (ascii "application/grpc-web").isPrefixOf (S.toLower requestType) then
    r.body ++ encodeGRPCWebTrailers code message
  else r.body

theorem splitCRLF_line {a : Bytes} (ha : ¬crlf <:+: a) (b : Bytes) :
    splitCRLF (a ++ crlf ++ b) = a :: splitCRLF b := by
  induction a with
  | nil => rfl
  | cons c a ih =>
    rw [infix_cons_iff,not_or] at ha
    have ih := ih ha.2
    cases a with
    | nil =>
      rw [show [c] ++ crlf ++ b = c :: 13 :: (10 :: b) from rfl,splitCRLF,
        if_neg fun h => absurd h.2 (by decide)]
      exact congrArg (onHead c) ih
    | cons d a =>
      have hcd : ¬(c = 13 ∧ d = 10) := by
        rintro ⟨rfl,rfl⟩
        exact ha.1 ⟨a,rfl⟩
      simp at ih ⊢
      rw [splitCRLF,if_neg hcd,ih]
      rfl

theorem not_crlf_append {a m : Bytes} (ha : 13 ∉ a) (hm : ¬crlf <:+: m) : ¬crlf <:+: a ++ m := by
  induction a with
  | nil => exact hm
  | cons c a ih =>
    obtain ⟨hc,ha⟩ := not_or.mp (mt mem_cons.mpr ha)
    rw [cons_append,infix_cons_iff]
    rintro (h | h)
    · exact hc (cons_prefix_cons.mp h).1
    · exact ih ha h

theorem cutColon_pair {k : Bytes} (hk : 58 ∉ k) (v : Bytes) :
    cutColon (k ++ 58 :: v) = some (k,v) := by
  have hp : ∀ c ∈ k, (decide (c ≠ 58)) = true := fun c hc =>
    decide_eq_true fun h => hk (h ▸ hc)
  rw [cutColon,takeWhile_append_of_pos hp,dropWhile_append_of_pos hp]
  simp

theorem itoa_bytes (n : Int) : ∀ c ∈ itoa n, 45 ≤ c.toNat ∧ c.toNat < 58 := by
  have hd : ∀ n, ∀ c ∈ digits n, 45 ≤ c.toNat ∧ c.toNat < 58 := by
    intro n c hc
    obtain ⟨x,hx,rfl⟩ := mem_map.mp hc
    obtain ⟨h₀,h₉⟩ :=
      Char.isDigit_iff_toNat.mp (Nat.isDigit_of_mem_toDigits (by decide) (by decide) hx)
    simp [Char.reduceToNat] at h₀ h₉ ⊢
    omega
  cases n with
  | ofNat n => exact hd n
  | negSucc n => exact forall_mem_cons.mpr ⟨by decide,hd _⟩

theorem trimSpace_token {s : Bytes} (h : Token s) : trimSpace s = s := by
  have hw : ∀ w ∈ GoBytes.spaces, ∃ c ∈ w, ¬(32 < c.toNat ∧ c.toNat < 127) := by decide
  refine GoBytes.trimSpace_of_forall fun r hr => Bool.eq_false_iff.mpr fun hs => ?_
  obtain ⟨c,hc,hn⟩ := hw r (GoBytes.isSpace_iff.mp hs)
  have hm : c ∈ s := GoBytes.flatten_runes s ▸ mem_flatten.mpr ⟨r,hr,hc⟩
  exact hn ⟨(h c hm).1,(h c hm).2.1⟩

theorem trailerLine {k : Bytes} (hk : Token k) (hc : 58 ∉ k) (v : Bytes) :
    ((cutColon (k ++ 58 :: v)).map fun kv => (S.toLower (trimSpace kv.1),trimSpace kv.2)) =
      some (k,trimSpace v) := by
  rw [cutColon_pair hc,Option.map_some,trimSpace_token hk,S.toLower_token k hk]

theorem exists_first_line {m : Bytes} (h : crlf <:+: m) :
    ∃ a b, ¬crlf <:+: a ∧ m = a ++ crlf ++ b := by
  induction m with
  | nil => exact absurd h (by decide)
  | cons c m ih =>
    by_cases hp : crlf <+: c :: m
    · obtain ⟨b,hb⟩ := hp
      exact ⟨[],b,by decide,hb.symm⟩
    · obtain ⟨a,b,ha,rfl⟩ := ih ((infix_cons_iff.mp h).resolve_left hp)
      refine ⟨c :: a,b,fun hi => (infix_cons_iff.mp hi).elim (fun hi => hp ?_) ha,rfl⟩
      exact hi.trans ⟨crlf ++ b,by simp⟩

theorem notMem_splitCRLF {c : UInt8} {s : Bytes} (h : c ∉ s) : ∀ line ∈ splitCRLF s, c ∉ line := by
  fun_induction splitCRLF s with
  | case1 => simp
  | case2 d => simpa using h
  | case3 d e s hn ih =>
    simp only [mem_cons,not_or] at h
    exact forall_mem_cons.mpr ⟨not_mem_nil,ih h.2.2⟩
  | case4 d e s hn ih =>
    obtain ⟨hd,hs⟩ := not_or.mp (mt mem_cons.mpr h)
    have ih := ih hs
    cases hl : splitCRLF (e :: s) with
    | nil => simpa [onHead] using hd
    | cons l ls =>
      rw [hl,forall_mem_cons] at ih
      exact forall_mem_cons.mpr ⟨by simpa using ⟨hd,ih.1⟩,ih.2⟩

theorem trailerLines_status (code : Int) (rest : Bytes) :
    trailerLines S (statusKey ++ 58 :: itoa code ++ crlf ++ rest) =
      (statusKey,itoa code) :: trailerLines S rest := by
  have hn : ¬crlf <:+: statusKey ++ 58 :: itoa code := by
    rw [← append_nil (statusKey ++ 58 :: itoa code)]
    refine not_crlf_append ?_ (by decide)
    simp only [mem_append,mem_cons,not_or]
    exact ⟨by decide +kernel,by decide,fun h => absurd (itoa_bytes code 13 h).1 (by decide)⟩
  have hi : trimSpace (itoa code) = itoa code :=
    trimSpace_token fun c hc => by
      have := itoa_bytes code c hc
      omega
  rw [trailerLines,splitCRLF_line hn,filterMap_cons,
    trailerLine S (by decide +kernel) (by decide),hi]
  rfl

theorem trailerLines_message {line : Bytes} (hl : ¬crlf <:+: line) (rest : Bytes) :
    trailerLines S (messageKey ++ 58 :: line ++ crlf ++ rest) =
      (messageKey,trimSpace line) :: trailerLines S rest := by
  have hn : ¬crlf <:+: messageKey ++ 58 :: line := by
    rw [append_cons]
    exact not_crlf_append (by decide +kernel) hl
  rw [trailerLines,splitCRLF_line hn,filterMap_cons,trailerLine S (by decide +kernel) (by decide)]
  rfl

theorem trailerLines_space {b : Bytes} (h : trimSpace b = []) :
    trailerLines S (b ++ crlf) = [] := by
  have hw : ∀ w ∈ GoBytes.spaces, 58 ∉ w := by decide
  have hb : 58 ∉ b := by
    rw [← GoBytes.flatten_runes b]
    intro hm
    obtain ⟨r,hr,hm⟩ := mem_flatten.mp hm
    exact hw r (GoBytes.isSpace_iff.mp (GoBytes.trimSpace_eq_nil_iff.mp h r hr)) hm
  refine filterMap_eq_nil_iff.mpr fun line hl => ?_
  rw [cutColon,if_neg (notMem_splitCRLF (by simpa [crlf] using hb) line hl)]
  rfl

def WrittenOnce (code : Int) (message : Bytes) (lines : List (Bytes × Bytes)) : Prop :=
  lines.filter (·.1 = statusKey) = [(statusKey,itoa code)] ∧
  (lines.filter (·.1 = messageKey)).length ≤ 1 ∧
  ∀ line ∈ lines, line.1 = statusKey ∨ line.1 = messageKey ∧ line.2 = trimSpace message

def OneLine (message : Bytes) : Prop :=
  ∀ a b, ¬crlf <:+: a → message = a ++ crlf ++ b → trimSpace b = []

theorem writtenOnce_cons_iff {code : Int} {message a : Bytes} {rest : List (Bytes × Bytes)} :
    WrittenOnce code message ((statusKey,itoa code) :: (messageKey,trimSpace a) :: rest) ↔
      trimSpace a = trimSpace message ∧ rest = [] := by
  have hk : messageKey ≠ statusKey := by decide +kernel
  constructor
  · rintro ⟨hs,hm,hall⟩
    simp only [forall_mem_cons] at hall
    refine ⟨(hall.2.1.resolve_left hk).2,eq_nil_iff_forall_not_mem.mpr fun line hl => ?_⟩
    rcases hall.2.2 line hl with h | ⟨h,-⟩
    · simp [hk] at hs
      exact hs _ _ hl h
    · simp [hk.symm] at hm
      exact hm _ _ hl h
  · rintro ⟨ha,rfl⟩
    simp [WrittenOnce,hk,hk.symm,ha]

theorem writtenOnce_first_line (code : Int) {a : Bytes} (ha : ¬crlf <:+: a) (b : Bytes) :
    WrittenOnce code (a ++ crlf ++ b) (trailerLines S (trailerBlock code (a ++ crlf ++ b))) ↔
      trimSpace b = [] := by
  have hb : messageKey ++ 58 :: (a ++ crlf ++ b) ++ crlf =
      messageKey ++ 58 :: a ++ crlf ++ (b ++ crlf) := by
    simp
  rw [trailerBlock,if_neg (by simp [crlf]),hb,trailerLines_status,trailerLines_message S ha,
    writtenOnce_cons_iff,eq_comm,append_assoc,show crlf ++ b = 13 :: 10 :: b from rfl,
    GoBytes.trimSpace_append_line_iff]
  exact and_iff_left_of_imp (trailerLines_space S)

theorem writtenOnce_block_iff (code : Int) (message : Bytes) :
    WrittenOnce code message (trailerLines S (trailerBlock code message)) ↔ OneLine message := by
  constructor
  · rintro h a b ha rfl
    exact (writtenOnce_first_line S code ha b).mp h
  · intro h
    by_cases hc : crlf <:+: message
    · obtain ⟨a,b,ha,rfl⟩ := exists_first_line hc
      exact (writtenOnce_first_line S code ha b).mpr (h a b ha rfl)
    rw [trailerBlock,trailerLines_status]
    split_ifs with hm
    · have hk : statusKey ≠ messageKey := by decide +kernel
      simp [WrittenOnce,trailerLines,splitCRLF,cutColon,hk]
    · rw [← append_nil (messageKey ++ 58 :: message ++ crlf),trailerLines_message S hc]
      exact writtenOnce_cons_iff.mpr ⟨rfl,rfl⟩

theorem trailers_written_once (requestType : Bytes) (r : Response)
    (hweb : (ascii "application/grpc-web").isPrefixOf (S.toLower requestType) = true) :
    ∃ size block,
      finishGRPCResponse S requestType r = r.body ++ grpcTrailerFlag :: (size ++ block) ∧
      size.length = 4 ∧
      (uint32 size = block.length ↔ block.length < 2 ^ 32) ∧
      (WrittenOnce r.grpcStatus.1 r.grpcStatus.2.1 (trailerLines S block) ↔
        OneLine r.grpcStatus.2.1) := by
  refine ⟨_,_,if_pos hweb,rfl,?_,writtenOnce_block_iff S _ _⟩
  rw [uint32_putUint32_mod]
  omega

def withStatus (message : Bytes) : Response :=
  ⟨[],some ((∅ : GoMap Bytes Bytes).put statusKey (ascii "13") |>.put messageKey message)⟩

theorem plain_message_written_once :
    ∃ size block, finishGRPCResponse plain (ascii "application/grpc-web+proto")
        (withStatus (ascii "boom")) = grpcTrailerFlag :: (size ++ block) ∧ size.length = 4 ∧
      WrittenOnce 13 (ascii "boom") (trailerLines plain block) := by
  obtain ⟨size,block,hf,hs,-,ho⟩ := trailers_written_once plain
    (ascii "application/grpc-web+proto") (withStatus (ascii "boom")) (by decide)
  refine ⟨size,block,hf,hs,ho.mpr fun a b _ h => ?_⟩
  exact absurd ⟨a,b,h.symm⟩ (show ¬crlf <:+: ascii "boom" by decide +kernel)

theorem message_writes_a_status :
    finishGRPCResponse plain (ascii "application/grpc-web+proto")
        (withStatus (ascii "boom\r\ngrpc-status:0")) =
      encodeGRPCFrame grpcTrailerFlag (trailerBlock 13 (ascii "boom\r\ngrpc-status:0")) ∧
    trailerLines plain (trailerBlock 13 (ascii "boom\r\ngrpc-status:0")) =
      [(statusKey,ascii "13"),(messageKey,ascii "boom"),(statusKey,ascii "0")] := by
  decide +kernel

end SageGateway.GrpcWeb
