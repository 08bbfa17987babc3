import Mathlib

/-!
This module contains the instances of a service and how they are read off the names of the nodes
that stand for them in the registry.
-/

namespace MsgRpc

abbrev Str := List Char

inductive ZkFault where
  | systemError -- thrown by `from_string`
  | assertion
  deriving DecidableEq, Repr

structure Endpoint (Address : Type) where
  address : Address
  port : UInt16
  deriving DecidableEq, Repr

structure InstanceInfo (Address : Type) where
  serviceId : Endpoint Address
  version : Str
  deriving DecidableEq, Repr

abbrev InstanceVector (Address : Type) := List (InstanceInfo Address)

section Strtoul

def isSpace (c : Char) : Bool :=
  c = ' ' ∨ 9 ≤ c.toNat ∧ c.toNat ≤ 13

def digitOf (base : Nat) (c : Char) : Option Nat :=
  let d :=
    if '0' ≤ c ∧ c ≤ '9' then c.toNat - 48
    else if 'a' ≤ c ∧ c ≤ 'z' then c.toNat - 87
    else if 'A' ≤ c ∧ c ≤ 'Z' then c.toNat - 55
    else base
  if d < base then some d else none

/--
The number the leading digits of `s` continue `acc` with.
-/
def digits (base : Nat) (acc : Nat) (s : Str) : Nat :=
  match s with
  | [] => acc
  | c :: s =>
    match digitOf base c with
    | some d => digits base (acc * base + d) s
    | none => acc

def ulongMax : Nat := 2 ^ 64 - 1

/--
`strtoul` with base 0, which reads hexadecimal, octal and decimal numbers.
-/
def strtoul (s : Str) : Nat :=
  match s.dropWhile isSpace with
  | '-' :: s => if ulongMax < number s then ulongMax else (2 ^ 64 - number s) % 2 ^ 64
  | '+' :: s => min (number s) ulongMax
  | s => min (number s) ulongMax
where
  number (s : Str) : Nat :=
    match s with
    | '0' :: x :: s => if x = 'x' ∨ x = 'X' then digits 16 0 s else digits 8 0 (x :: s)
    | s => digits 10 0 s

end Strtoul

section Instances

variable {Address : Type} [LinearOrder Address] (fromString : Str → Option Address)

/--
`fromString` is `boost::asio::ip::address::from_string`, where it throws it is `none`.
-/
def strToServiceId (endpoint : Str) : Except ZkFault (Option (Endpoint Address)) :=
  match endpoint.dropWhile (· ≠ ':') with
  | [] => .ok none
  | _ :: rest =>
    match fromString (endpoint.takeWhile (· ≠ ':')) with
    | some address => .ok (some ⟨address, UInt16.ofNat (strtoul rest)⟩)
    | none => .error .systemError

def serviceVersionOf (endpoint : Str) : Str :=
  (endpoint.dropWhile (· ≠ '#')).tail

def Endpoint.lt (a b : Endpoint Address) : Bool :=
  a.address < b.address ∨ a.address = b.address ∧ a.port < b.port

-- `insert` of an `instance_set_t`, an instance with the same endpoint is kept
def insertInstance (set : InstanceVector Address) (ii : InstanceInfo Address)
    : InstanceVector Address :=
  match set with
  | [] => [ii]
  | x :: xs =>
    if ii.serviceId.lt x.serviceId then
      ii :: x :: xs
    else if x.serviceId.lt ii.serviceId then
      x :: insertInstance xs ii
    else
      x :: xs

def stringsToInstances (instanceStrings : List Str) : Except ZkFault (InstanceVector Address) :=
  go [] instanceStrings
where
  go (instanceSet : InstanceVector Address) (instanceStrings : List Str)
      : Except ZkFault (InstanceVector Address) :=
    match instanceStrings with
    | [] => .ok instanceSet
    | si :: rest =>
      match strToServiceId fromString si with
      | .error e => .error e
      | .ok (some serviceId) =>
        go (insertInstance instanceSet ⟨serviceId, serviceVersionOf si⟩) rest
      | .ok none => go instanceSet rest

end Instances
end MsgRpc
