import SageGateway.Lib.GoString

namespace SageGateway

inductive RPCType where
  | jsonRPC
  | rest
  | cometBFT
  | webSocket
  | grpc
  | unknown
  deriving DecidableEq

namespace RPCType

def text : RPCType → GoString
  | jsonRPC => "json_rpc".toList
  | rest => "rest".toList
  | cometBFT => "comet_bft".toList
  | webSocket => "websocket".toList
  | grpc => "grpc".toList
  | unknown => "unknown".toList

def allRPCTypes : List RPCType := [jsonRPC,rest,cometBFT,webSocket,grpc]

def parseRPCType (s : GoString) : Option RPCType :=
  allRPCTypes.find? fun t => GoString.equalFoldASCII s t.text

end RPCType

structure Platform where
  toLower : GoString → GoString
  effectiveTLDPlusOne : GoString → Option GoString

def asciiPlatform : Platform where
  toLower := List.map Char.toLower
  effectiveTLDPlusOne host :=
    let labels := GoString.split '.' host
    if labels.length < 2 then none
    else some (['.'].intercalate (labels.drop (labels.length - 2)))

abbrev EndpointAddr := GoString

namespace EndpointAddr

def supplier (e : EndpointAddr) : GoString := ((GoString.cut '-' e).map Prod.fst).getD e

def url (e : EndpointAddr) : Option GoString :=
  match GoString.cut '-' e with
  | some (_,u) => if u = [] then none else some u
  | none => none

def hostOfURL (u : GoString) : GoString :=
  let noScheme := ((GoString.cutText "://".toList u).map Prod.snd).getD u
  let noPath := GoString.beforeFirst '/' noScheme
  ((GoString.cutLast ':' noPath).map Prod.fst).getD noPath

def domain (e : EndpointAddr) : GoString := ((url e).map hostOfURL).getD []

def computeOperator (P : Platform) (host : GoString) : GoString :=
  if host = [] then []
  else match P.effectiveTLDPlusOne host with
    | some op => if op = [] then host else op
    | none => host

def operator (P : Platform) (e : EndpointAddr) : GoString := computeOperator P (domain e)

end EndpointAddr

end SageGateway
