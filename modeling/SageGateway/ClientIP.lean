import SageGateway.Lib.NetIP

namespace SageGateway

open List

open NetIP

def parseIP (s : GoString) : Option Addr :=
  if s = [] then none
  else match Addr.parseAddr s with
    | some addr => some addr.unmap
    | none =>
        match splitHostPort s with
        | some (host,_) => (Addr.parseAddr host).map Addr.unmap
        | none => none

def ipInAny (addr : Addr) (prefixes : List Prefix) : Bool := prefixes.any fun p => p.contains addr

def scanParts (trusted : List Prefix) : List GoString → Option Addr
  | [] => none
  | part :: parts =>
      match parseIP (GoString.trimSpace part) with
      | some addr => if ipInAny addr trusted then scanParts trusted parts else some addr
      | none => scanParts trusted parts

def scanForwarded (trusted : List Prefix) : List GoString → Option Addr
  | [] => none
  | header :: headers =>
      match scanParts trusted (GoString.split ',' header).reverse with
      | some addr => some addr
      | none => scanForwarded trusted headers

def resolveClientIP (peer : GoString) (forwarded : List GoString) (trusted : List Prefix) :
    Option Addr :=
  match parseIP peer with
  | none => none
  | some peerAddr =>
      if ipInAny peerAddr trusted then
        some ((scanForwarded trusted forwarded.reverse).getD peerAddr)
      else some peerAddr

def forwardedEntries (forwarded : List GoString) : List GoString :=
  forwarded.flatMap (GoString.split ',')

def untrustedAddr (trusted : List Prefix) (entry : GoString) : Option Addr :=
  (parseIP (GoString.trimSpace entry)).filter fun addr => !ipInAny addr trusted

variable {trusted : List Prefix}

theorem scanParts_eq (parts : List GoString) :
    scanParts trusted parts = parts.findSome? (untrustedAddr trusted) := by
  induction parts with
  | nil => rfl
  | cons part parts ih =>
    rw [findSome?_cons,scanParts,ih,untrustedAddr]
    cases hp : parseIP (GoString.trimSpace part) with
    | none => rfl
    | some addr => cases ht : ipInAny addr trusted <;> simp [ht,Option.filter]

theorem scanForwarded_eq (headers : List GoString) :
    scanForwarded trusted headers.reverse =
      (forwardedEntries headers).reverse.findSome? (untrustedAddr trusted) := by
  have h : ∀ hs : List GoString, scanForwarded trusted hs =
      (hs.flatMap fun header => (GoString.split ',' header).reverse).findSome?
        (untrustedAddr trusted) := by
    intro hs
    induction hs with
    | nil => rfl
    | cons header hs ih =>
      rw [scanForwarded,scanParts_eq,flatMap_cons,findSome?_append,ih]
      cases findSome? (untrustedAddr trusted) (GoString.split ',' header).reverse <;> rfl
  rw [h,forwardedEntries,flatMap_reverse]
  simp only [Function.comp_def,reverse_reverse]

theorem scanForwarded_of_untrusted {headers : List GoString} {left right : List GoString}
    {entry : GoString} (hs : forwardedEntries headers = left ++ entry :: right)
    (he : (untrustedAddr trusted entry).isSome) :
    scanForwarded trusted headers.reverse =
      (right.reverse.findSome? (untrustedAddr trusted)).or (untrustedAddr trusted entry) := by
  obtain ⟨addr,ha⟩ := Option.isSome_iff_exists.mp he
  rw [scanForwarded_eq,hs]
  simp [findSome?_append,ha]

theorem scanForwarded_of_no_untrusted {headers : List GoString}
    (h : ∀ entry ∈ forwardedEntries headers, untrustedAddr trusted entry = none) :
    scanForwarded trusted headers.reverse = none := by
  rw [scanForwarded_eq,findSome?_eq_none_iff]
  intro entry he
  exact h entry (mem_reverse.mp he)

theorem resolveClientIP_of_trusted {peer : GoString} {peerAddr : Addr}
    (hp : parseIP peer = some peerAddr) (ht : ipInAny peerAddr trusted = true)
    (forwarded : List GoString) :
    resolveClientIP peer forwarded trusted =
      some ((scanForwarded trusted forwarded.reverse).getD peerAddr) := by
  simp [resolveClientIP,hp,ht]

theorem resolveClientIP_from_rightmost_untrusted {peer : GoString} {peerAddr : Addr}
    (hpeer : parseIP peer = some peerAddr) (htrusted : ipInAny peerAddr trusted = true) :
    (∀ forwarded forwarded' left left' entry right,
      forwardedEntries forwarded = left ++ entry :: right →
      forwardedEntries forwarded' = left' ++ entry :: right →
      (untrustedAddr trusted entry).isSome →
      resolveClientIP peer forwarded trusted = resolveClientIP peer forwarded' trusted) ∧
    (∀ forwarded left entry right addr,
      forwardedEntries forwarded = left ++ entry :: right →
      untrustedAddr trusted entry = some addr →
      (∀ e ∈ right, untrustedAddr trusted e = none) →
      resolveClientIP peer forwarded trusted = some addr) ∧
    (∀ forwarded, (∀ e ∈ forwardedEntries forwarded, untrustedAddr trusted e = none) →
      resolveClientIP peer forwarded trusted = some peerAddr) := by
  have hr := resolveClientIP_of_trusted hpeer htrusted
  refine ⟨?_,?_,?_⟩
  · intro forwarded forwarded' left left' entry right hs hs' hen
    rw [hr,hr,scanForwarded_of_untrusted hs hen,
      scanForwarded_of_untrusted hs' hen]
  · intro forwarded left entry right addr hs hen hri
    have hn : right.reverse.findSome? (untrustedAddr trusted) = none :=
      findSome?_eq_none_iff.mpr fun e he => hri e (mem_reverse.mp he)
    rw [hr,scanForwarded_of_untrusted hs (by rw [hen]; rfl),hn,hen]
    rfl
  · intro forwarded ha
    rw [hr,scanForwarded_of_no_untrusted ha]
    rfl

def privateTen : Prefix := .v4 0x0a000000 8

theorem unparseable_entry_is_skipped :
    forwardedEntries ["1.2.3.4, garbage".toList] = ["1.2.3.4".toList] ++ [" garbage".toList] ∧
    forwardedEntries ["5.6.7.8, garbage".toList] = ["5.6.7.8".toList] ++ [" garbage".toList] ∧
    parseIP (GoString.trimSpace " garbage".toList) = none ∧
    resolveClientIP "10.0.0.1:5000".toList ["1.2.3.4, garbage".toList] [privateTen] =
      some (.v4 0x01020304) ∧
    resolveClientIP "10.0.0.1:5000".toList ["5.6.7.8, garbage".toList] [privateTen] =
      some (.v4 0x05060708) := by
  decide

theorem forged_left_entry_is_ignored :
    resolveClientIP "10.0.0.1:5000".toList ["1.1.1.1, 203.0.113.7:99, unknown, 10.9.9.9".toList]
      [privateTen] = some (.v4 0xcb007107) :=
  (@resolveClientIP_from_rightmost_untrusted [privateTen] "10.0.0.1:5000".toList (.v4 0x0a000001)
    (by decide) (by decide)).2.1 _ ["1.1.1.1".toList] " 203.0.113.7:99".toList
    [" unknown".toList," 10.9.9.9".toList] _ (by decide) (by decide) (by decide)

end SageGateway
