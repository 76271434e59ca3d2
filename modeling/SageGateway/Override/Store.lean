import SageGateway.Lib.GoMap
import SageGateway.Lib.GoString

namespace SageGateway

abbrev OverrideStore := GoMap GoString GoString

namespace OverrideStore

def list (store : OverrideStore) (keySpace : GoString) : GoMap GoString GoString :=
  store.filter fun key _ => keySpace.isPrefixOf key

theorem get_list {store : OverrideStore} {keySpace key : GoString}
    (h : keySpace.isPrefixOf key = true) : (store.list keySpace).get key = store.get key := by
  rw [list,GoMap.get_filter]
  cases store.get key with
  | none => rfl
  | some raw => simp [Option.filter,h]

def trim (keySpace key : GoString) : GoString :=
  if keySpace.isPrefixOf key then key.drop keySpace.length else key

theorem listed_append (keySpace name : GoString) :
    keySpace.isPrefixOf (keySpace ++ name) = true :=
  List.isPrefixOf_iff_prefix.mpr (List.prefix_append keySpace name)

theorem trim_append (keySpace name : GoString) : trim keySpace (keySpace ++ name) = name := by
  rw [trim,if_pos (listed_append keySpace name),List.drop_left]

end OverrideStore

def mapsEqual (m m' : GoMap GoString GoString) : Bool :=
  m.len == m'.len && m.toList.all fun e => m'.get e.1 == some e.2

structure OverrideWatch where
  first : Bool
  last : GoMap GoString GoString

namespace OverrideWatch

def start : OverrideWatch := ⟨true,∅⟩

def applies (w : OverrideWatch) (cur : GoMap GoString GoString) : Bool :=
  w.first || !mapsEqual cur w.last

def listed (cur : GoMap GoString GoString) : OverrideWatch := ⟨false,cur⟩

theorem applies_of_first {w : OverrideWatch} (h : w.first = true) (cur : GoMap GoString GoString) :
    w.applies cur = true := by
  rw [applies,h,Bool.true_or]

end OverrideWatch

end SageGateway
