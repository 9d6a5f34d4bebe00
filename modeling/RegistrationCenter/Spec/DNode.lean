import RegistrationCenter.Lib.RcTree
import RegistrationCenter.Spec.Messages

/-!
# `RegistrationCenter.Spec.DNode`: the nodes of the store

`src/DNode.h`. A node holds shared pointers to its children under their names and a
weak pointer to its parent. Pointers are addresses of an `RcHeap`.
-/

set_option autoImplicit false

namespace RegistrationCenter

open Lib

structure DNode where
  name : Bytes
  data : Bytes
  type : NodeType
  /-- The session the node belongs to. -/
  ephemeralOwner : UInt64
  children : AList (fun _ : Bytes => Nat)
  /-- A weak pointer, which can be empty. -/
  parent : Option Nat

/-- `DNode()`. -/
def DNode.empty : DNode :=
  { name := [], data := [], type := .PERSISTENT, ephemeralOwner := 0, children := ∅,
    parent := none }

/-- `DNode(name, data, type, ephemeral, parent)`. -/
def DNode.mk' (name data : Bytes) (type : NodeType) (ephemeral : UInt64) (parent : Nat) : DNode :=
  { name := name, data := data, type := type, ephemeralOwner := ephemeral, children := ∅,
    parent := some parent }

instance : HasChildren DNode Bytes where
  children := DNode.children
  setChildren v m := { v with children := m }
  children_setChildren _ _ := rfl
  setChildren_children _ := rfl
  setChildren_setChildren _ _ _ := rfl

end RegistrationCenter
