import SageGateway.Lib.GoString

namespace NetIP

inductive Addr where
  | v4 (bits : BitVec 32)
  | v6 (bits : BitVec 128) (zone : GoString)
  deriving DecidableEq

inductive Prefix where
  | v4 (bits : BitVec 32) (len : Fin 33)
  | v6 (bits : BitVec 128) (len : Fin 129)
  deriving DecidableEq

namespace Addr

def unmap : Addr → Addr
  | v4 b => v4 b
  | v6 b zone => if b >>> 32 = 0xffff then v4 (BitVec.ofNat 32 b.toNat) else v6 b zone

def digit? (c : Char) : Option Nat :=
  if '0' ≤ c ∧ c ≤ '9' then some (c.toNat - '0'.toNat) else none

def hexDigit? (c : Char) : Option Nat :=
  if '0' ≤ c ∧ c ≤ '9' then some (c.toNat - '0'.toNat)
  else if 'a' ≤ c ∧ c ≤ 'f' then some (c.toNat - 'a'.toNat + 10)
  else if 'A' ≤ c ∧ c ≤ 'F' then some (c.toNat - 'A'.toNat + 10)
  else none

def parseOctet (s : GoString) : Option Nat :=
  match s with
  | [] => none
  | '0' :: _ :: _ => none
  | _ => (s.mapM digit?).bind fun ds =>
      let val := ds.foldl (fun v d => v * 10 + d) 0
      if val ≤ 255 then some val else none

def parseIPv4Fields (s : GoString) : Option (List Nat) :=
  let fields := GoString.split '.' s
  if fields.length = 4 then fields.mapM parseOctet else none

def parseIPv4 (s : GoString) : Option Addr :=
  (parseIPv4Fields s).map fun fs => v4 (BitVec.ofNat 32 (fs.foldl (fun v b => v * 256 + b) 0))

structure Groups where
  groups : List Nat
  ellipsis : Option Nat
  rest : GoString

def parseGroups : Nat → GoString → List Nat → Option Nat → Option Groups
  | 0, s, groups, ellipsis => some ⟨groups,ellipsis,s⟩
  | n + 1, s, groups, ellipsis =>
      let digits := s.takeWhile fun c => (hexDigit? c).isSome
      let val := (digits.filterMap hexDigit?).foldl (fun v d => v * 16 + d) 0
      if digits = [] ∨ 4 < digits.length then none
      else match s.drop digits.length with
        | [] => some ⟨groups ++ [val],ellipsis,[]⟩
        | '.' :: _ =>
            if ellipsis = none ∧ groups.length ≠ 6 then none
            else if 8 < groups.length + 2 then none
            else match parseIPv4Fields s with
              | some [a,b,c,d] => some ⟨groups ++ [a * 256 + b,c * 256 + d],ellipsis,[]⟩
              | _ => none
        | ':' :: [] => none
        | ':' :: ':' :: tail =>
            if ellipsis.isSome then none
            else if tail = [] then some ⟨groups ++ [val],some (groups.length + 1),[]⟩
            else parseGroups n tail (groups ++ [val]) (some (groups.length + 1))
        | ':' :: tail => parseGroups n tail (groups ++ [val]) ellipsis
        | _ => none

def expand (g : Groups) : Option (List Nat) :=
  if g.rest ≠ [] then none
  else if g.groups.length < 8 then
    g.ellipsis.map fun e =>
      g.groups.take e ++ List.replicate (8 - g.groups.length) 0 ++ g.groups.drop e
  else if g.ellipsis.isSome then none
  else some g.groups

def ofGroups (zone : GoString) (gs : List Nat) : Addr :=
  v6 (BitVec.ofNat 128 (gs.foldl (fun v g => v * 65536 + g) 0)) zone

def parseIPv6Body (s zone : GoString) : Option Addr :=
  match s with
  | [':',':'] => some (v6 0 zone)
  | ':' :: ':' :: tail => ((parseGroups 8 tail [] (some 0)).bind expand).map (ofGroups zone)
  | _ => ((parseGroups 8 s [] none).bind expand).map (ofGroups zone)

def parseIPv6 (s : GoString) : Option Addr :=
  match GoString.cut '%' s with
  | some (_,[]) => none
  | some (body,zone) => parseIPv6Body body zone
  | none => parseIPv6Body s []

def parseAddr (s : GoString) : Option Addr :=
  match s.find? fun c => c = '.' ∨ c = ':' ∨ c = '%' with
  | some '.' => parseIPv4 s
  | some ':' => parseIPv6 s
  | _ => none

end Addr

def Prefix.contains : Prefix → Addr → Bool
  | .v4 p len, .v4 a => (a ^^^ p) >>> (32 - len.val) = 0
  | .v6 p len, .v6 a [] => (a ^^^ p) >>> (128 - len.val) = 0
  | _, _ => false

def splitHostPort (s : GoString) : Option (GoString × GoString) :=
  match GoString.cutLast ':' s with
  | none => none
  | some (before,port) =>
      if s.head? = some '[' then
        match GoString.cut ']' s with
        | none => none
        | some (inner,_) =>
            if inner.length + 1 = before.length ∧ '[' ∉ s.drop 1 ∧ ']' ∉ s.drop (inner.length + 1)
            then some (inner.drop 1,port) else none
      else if ':' ∈ before ∨ '[' ∈ s ∨ ']' ∈ s then none
      else some (before,port)

end NetIP
