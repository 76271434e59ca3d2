import SageGateway.Subscription.Registry

namespace SageGateway

namespace FlatReader

def field (name : String) (data : Frame) : Option (Nat × GoString) :=
  (GoString.cutText ('"' :: name.toList ++ "\":".toList) data).map fun p =>
    (p.1.length + name.length + 3,p.2.takeWhile fun c => c ≠ ',' && c ≠ '\x7d')

def raw (name : String) (data : Frame) : RawID := ((field name data).map Prod.snd).getD []

def spanOf (name : String) (data : Frame) : Span :=
  match field name data with
  | some (index,value) => ⟨index,value.length⟩
  | none => ⟨0,0⟩

def inner (value : GoString) : GoString := (value.drop 1).dropLast

def classifyClientFrame (data : Frame) : ClientFrameInfo :=
  let method := raw "method" data
  let span := spanOf "params" data
  if method = "\"slotSubscribe\"".toList then
    ⟨.subscribe,raw "id" data,method,method,true,[],⟨0,0⟩⟩
  else if method = "\"slotUnsubscribe\"".toList then
    ⟨.unsubscribe,raw "id" data,method,[],false,inner (raw "params" data),
      ⟨span.index + 1,span.len - 2⟩⟩
  else ⟨.none,[],[],[],false,[],⟨0,0⟩⟩

def classifyEndpointFrame (data : Frame) : EndpointFrameInfo :=
  if raw "method" data = "\"slotNotification\"".toList then
    ⟨.notification,[],raw "subscription" data,spanOf "subscription" data,false⟩
  else ⟨.response,raw "id" data,raw "result" data,⟨0,0⟩,(field "error" data).isSome⟩

end FlatReader

def flatReader : FrameReader where
  classifyClientFrame := FlatReader.classifyClientFrame
  classifyEndpointFrame := FlatReader.classifyEndpointFrame
  arrayMembers _ := []
  jsonRPCRequestID := FlatReader.raw "id"
  jsonRPCRequestIDSpan := FlatReader.spanOf "id"
  isWriteRequest data := FlatReader.raw "method" data = "\"sendTransaction\"".toList
  hash := List.length

def slotSubscribe (id : String) : Frame :=
  "\x7b\"id\":".toList ++ id.toList ++ ",\"method\":\"slotSubscribe\"\x7d".toList

def resultFrame (id result : String) : Frame :=
  "\x7b\"id\":".toList ++ id.toList ++ ",\"result\":".toList ++ result.toList ++ ['\x7d']

end SageGateway
