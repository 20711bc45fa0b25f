import Ratewall.Rust.Text

/-! Owns JSON values as `serde_json` holds them, with object members in key
order, the construction of an object from listed members, the accessors, and
what a reader and writer of their text owe each other. It does not own any
grammar. -/

namespace Ratewall.Json

open Ratewall.Rust

inductive Number where
  | posInt (value : UInt64)
  | negInt (value : Int64)
  | float (bits : UInt64)
deriving DecidableEq, Repr

inductive Value where
  | null
  | bool (value : Bool)
  | number (value : Number)
  | string (value : Text)
  | array (items : List Value)
  | object (members : List (Text × Value))

namespace Value

def insert (key : Text) (value : Value) : List (Text × Value) → List (Text × Value)
  | [] => [(key, value)]
  | (first, held) :: rest =>
      match compare key first with
      | .lt => (key, value) :: (first, held) :: rest
      | .eq => (key, value) :: rest
      | .gt => (first, held) :: insert key value rest

def collect (members : List (Text × Value)) : List (Text × Value) :=
  members.foldl (fun map member => insert member.1 member.2 map) []

/-- `json!({ ... })`. -/
def json (members : List (Text × Value)) : Value := .object (collect members)

def u64 (value : UInt64) : Value := .number (.posInt value)

def get (key : Text) : Value → Option Value
  | .object members => (members.find? fun member => member.1 = key).map Prod.snd
  | _ => none

def asStr : Value → Option Text
  | .string value => some value
  | _ => none

def asU64 : Value → Option UInt64
  | .number (.posInt value) => some value
  | _ => none

private theorem insert_of_greater {key : Text} {value : Value} {members : List (Text × Value)}
    (greater : ∀ member ∈ members, compare key member.1 = .gt) :
    insert key value members = members ++ [(key, value)] := by
  induction members with
  | nil => rfl
  | cons first rest inductionHypothesis =>
      have later : insert key value rest = rest ++ [(key, value)] :=
        inductionHypothesis fun member inside => greater member (List.mem_cons_of_mem _ inside)
      obtain ⟨held, text⟩ := first
      rw [insert, greater (held, text) List.mem_cons_self]
      show (held, text) :: insert key value rest = _
      rw [later]
      rfl

private theorem foldl_insert_of_ordered {before after : List (Text × Value)}
    (ordered : (before ++ after).Pairwise fun left right => compare right.1 left.1 = .gt) :
    after.foldl (fun map member => insert member.1 member.2 map) before = before ++ after := by
  induction after generalizing before with
  | nil => simp
  | cons member rest inductionHypothesis =>
      have greater : ∀ held ∈ before, compare member.1 held.1 = .gt := by
        intro held inside
        exact (List.pairwise_append.mp ordered).2.2 held inside member List.mem_cons_self
      have shifted : before ++ member :: rest = (before ++ [member]) ++ rest := by simp
      rw [List.foldl_cons, insert_of_greater greater, shifted]
      exact inductionHypothesis (shifted ▸ ordered)

/-- Members that are already in key order stay as they are. -/
theorem collect_of_ordered {members : List (Text × Value)}
    (ordered : members.Pairwise fun left right => compare right.1 left.1 = .gt) :
    collect members = members :=
  @foldl_insert_of_ordered [] members ordered

def Scalar : Value → Prop
  | .string _ => True
  | .number (.posInt _) => True
  | _ => False

end Value

/-- The members of an object of texts and unsigned numbers, in key order. -/
structure Flat (members : List (Text × Value)) : Prop where
  ordered : members.Pairwise fun left right => compare right.1 left.1 = .gt
  scalar : ∀ member ∈ members, member.2.Scalar

/-- `to_vec` and `from_slice`. The reader reports failures in its own words, as
on an empty input. On flat objects it inverts the writer. -/
structure Codec where
  toVec : Value → List UInt8
  fromSlice : List UInt8 → Except Text Value
  fromSlice_nil : ∀ value, fromSlice [] ≠ .ok value
  fromSlice_toVec : ∀ members, Flat members →
    fromSlice (toVec (.object members)) = .ok (.object members)

theorem Codec.toVec_ne_nil (codec : Codec) {members : List (Text × Value)} (flat : Flat members) :
    codec.toVec (.object members) ≠ [] := by
  intro empty
  have read := codec.fromSlice_toVec members flat
  rw [empty] at read
  exact codec.fromSlice_nil _ read

end Ratewall.Json
