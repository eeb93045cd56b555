import RocToolkit.Core.Slice
import Mathlib.Data.List.Basic
import Mathlib.Logic.Function.Basic

/-!
# RocToolkit.Core.Hashmap

`core::HashmapImpl`. The elements are in two arrays of buckets: after a growth those of the previous array are
moved to the current one by and by, with every insertion and removal. A bucket and the list of all elements are lists,
in the order of their links from the head on.
-/

namespace Roc.Core

inductive BucketMemory where
  | null
  /-- `preallocated_data_` -/
  | preallocated
  /-- an allocation of the arena, by its number -/
  | arena (id : Nat)
deriving DecidableEq, Repr

structure BucketArray (ν : Type) where
  memory : BucketMemory := .null
  count : Nat := 0
  buckets : Nat → List ν := fun _ => []

def BucketArray.contains {ν : Type} (a : BucketArray ν) : Option (BucketMemory × Nat) → Bool
  | none => false
  | some (memory, i) => a.count ≠ 0 && (memory = a.memory && i < a.count)

def BucketArray.erase {ν : Type} [DecidableEq ν] (a : BucketArray ν) (i : Nat) (node : ν) : BucketArray ν :=
  { a with buckets := Function.update a.buckets i ((a.buckets i).erase node) }

/-- `HashmapImpl`, with the fields `hash` and `bucket` of all nodes. -/
structure Hashmap (ν : Type) where
  numPreallocatedBuckets : Nat
  curr : BucketArray ν := {}
  prev : BucketArray ν := {}
  size : Nat := 0
  rehashPos : Nat := 0
  rehashRemainNodes : Nat := 0
  all : List ν := []
  hash : ν → Nat := fun _ => 0
  bucket : ν → Option (BucketMemory × Nat) := fun _ => none
  /-- how many arrays the arena has allocated -/
  allocations : Nat := 0

namespace Hashmap

variable {ν κ : Type} [DecidableEq ν] [DecidableEq κ]

def bucketsCapacity (nBuckets : Nat) : Nat := nBuckets * 13 / 2

def primeCounts : List Nat :=
  [5, 11, 23, 53, 97, 193, 389, 769, 1543, 3079, 6151, 12289, 24593, 49157, 98317, 196613, 393241, 786433]

def embeddedBucketSize (numPreallocated currentCount : Nat) : List Nat → Option Nat
  | p :: q :: rest =>
    if p > numPreallocated then none
    else if p > currentCount ∧ q > numPreallocated then some p
    else embeddedBucketSize numPreallocated currentCount (q :: rest)
  | _ => none

def getNextBucketSize (h : Hashmap ν) (currentCount : Nat) : Nat :=
  let embedded :=
    if currentCount < h.numPreallocatedBuckets then
      embeddedBucketSize h.numPreallocatedBuckets currentCount primeCounts
    else none
  match embedded with
  | some n => n
  | none =>
    match primeCounts.find? fun p => ¬ p < 23 ∧ p > currentCount with
    | some n => n
    | none => currentCount * 3

def memberOfBucketArray (h : Hashmap ν) (a : BucketArray ν) (node : ν) : Bool := a.contains (h.bucket node)

def contains (h : Hashmap ν) (node : ν) : Bool := h.memberOfBucketArray h.curr node || h.memberOfBucketArray h.prev node

section
variable (keyOf : ν → κ)

def findInBucket (h : Hashmap ν) (bucket : List ν) (hash : Nat) (key : κ) : Option ν :=
  bucket.find? fun node => h.hash node = hash && keyOf node = key

def findInArray (h : Hashmap ν) (a : BucketArray ν) (hash : Nat) (key : κ) : Option ν :=
  if a.count ≠ 0 then h.findInBucket keyOf (a.buckets (hash % a.count)) hash key else none

def findNode (h : Hashmap ν) (hash : Nat) (key : κ) : Option ν :=
  (h.findInArray keyOf h.curr hash key).or (h.findInArray keyOf h.prev hash key)

end

def front (h : Hashmap ν) : Option ν := if h.size = 0 then none else h.all.head?

def nextof (h : Hashmap ν) (node : ν) : Except Fault (Option ν) :=
  if ¬ h.contains node then
    .error (.panic "hashmap: attempt to use an element which is not a member of hashmap")
  else .ok (h.all.dropWhile (· ≠ node)).tail.head?

/-- `bucket_insert_` of a bucket of the current array: the node is put before the head, at the end of the ring. -/
def bucketInsert (h : Hashmap ν) (i : Nat) (node : ν) : Hashmap ν :=
  { h with
    curr := { h.curr with buckets := Function.update h.curr.buckets i (h.curr.buckets i ++ [node]) }
    bucket := Function.update h.bucket node (some (h.curr.memory, i)) }

def bucketRemove (h : Hashmap ν) (node : ν) : Except Fault (Hashmap ν) :=
  match h.bucket node with
  | none => .error .nullPointer
  | some (memory, i) =>
    if h.memberOfBucketArray h.prev node then
      if h.rehashRemainNodes > 0 then
        .ok { h with
          prev := h.prev.erase i node
          rehashRemainNodes := h.rehashRemainNodes - 1
          bucket := Function.update h.bucket node none }
      else .error (.panic "rehash_remain_nodes_ > 0")
    else if memory = h.curr.memory ∧ i < h.curr.count then
      .ok { h with
        curr := h.curr.erase i node
        bucket := Function.update h.bucket node none }
    else .error .dangling

def selectBucket (h : Hashmap ν) (hash : Nat) : Except Fault Nat :=
  if h.curr.count = 0 then .error (.panic "n_curr_buckets_ == 0") else .ok (hash % h.curr.count)

def migrateNode (h : Hashmap ν) (node : ν) : Except Fault (Hashmap ν) := do
  let h ← h.bucketRemove node
  let i ← h.selectBucket (h.hash node)
  .ok (h.bucketInsert i node)

/-- The loop of `proceed_rehash_`. -/
def rehashLoop : Nat → Nat → Hashmap ν → Except Fault (Hashmap ν)
  | 0, _, _ => .error .outOfFuel
  | fuel + 1, numMigrations, h =>
    if h.rehashPos < h.prev.count then
      match h.prev.buckets h.rehashPos with
      | [] =>
        if h.rehashPos + 1 = h.prev.count then
          if h.rehashRemainNodes = 0 then .ok { h with rehashPos := 0, prev := { h.prev with count := 0 } }
          else .error (.panic "rehash_remain_nodes_ == 0")
        else rehashLoop fuel numMigrations { h with rehashPos := h.rehashPos + 1 }
      | head :: _ =>
        if numMigrations = 0 then .ok h
        else do
          let h ← h.migrateNode head
          rehashLoop fuel (numMigrations - 1) h
    else .error (.panic "rehash_pos_ < n_prev_buckets_")

def numMigrations (h : Hashmap ν) (inInsert : Bool) : Nat :=
  if inInsert then
    let insertsUntilRehash := bucketsCapacity h.curr.count - h.size
    if insertsUntilRehash = 0 then h.rehashRemainNodes
    else (h.rehashRemainNodes + insertsUntilRehash - 1) / insertsUntilRehash
  else 1

def proceedRehash (h : Hashmap ν) (inInsert : Bool) : Except Fault (Hashmap ν) :=
  if h.rehashRemainNodes = 0 then .ok h
  else h.rehashLoop (h.prev.count + h.numMigrations inInsert + 1) (h.numMigrations inInsert)

/-- `allocated` tells whether the arena returns memory. -/
def reallocBuckets (h : Hashmap ν) (nBuckets : Nat) (allocated : Bool) : Except Fault (Bool × Hashmap ν) :=
  if ¬ nBuckets > 0 then .error (.panic "n_buckets > 0")
  else if h.rehashPos ≠ 0 then .error (.panic "rehash_pos_ == 0")
  else if h.rehashRemainNodes ≠ 0 then .error (.panic "rehash_remain_nodes_ == 0")
  else
    let embedded := nBuckets ≤ h.numPreallocatedBuckets ∧ h.curr.memory ≠ .preallocated
    if ¬ embedded ∧ allocated = false then .ok (false, h)
    else
      let old := if h.curr.memory = .null then h
        else { h with prev := h.curr, rehashPos := 0, rehashRemainNodes := h.size }
      .ok (true, { old with
        curr := { memory := if embedded then .preallocated else .arena h.allocations, count := nBuckets }
        allocations := if embedded then h.allocations else h.allocations + 1 })

/-- The `do` loop of `grow`. -/
def growLoop (h : Hashmap ν) : Nat → Nat → Except Fault Nat
  | 0, _ => .error .outOfFuel
  | fuel + 1, nBuckets =>
    let nBuckets := h.getNextBucketSize nBuckets
    if h.size ≥ bucketsCapacity nBuckets then h.growLoop fuel nBuckets else .ok nBuckets

def grow (h : Hashmap ν) (allocated : Bool) : Except Fault (Bool × Hashmap ν) := do
  let cap := bucketsCapacity h.curr.count
  if ¬ h.size ≤ cap then .error (.panic "size_ <= cap")
  else if h.size = cap then
    let nBuckets ← h.growLoop (h.size + 1) h.curr.count
    let (grown, h) ← h.reallocBuckets nBuckets allocated
    if grown = false then .ok (false, h)
    else if h.size < bucketsCapacity h.curr.count then .ok (true, h)
    else .error (.panic "size_ < new_cap")
  else .ok (true, h)

section
variable (keyOf : ν → κ) (keyHash : κ → Nat)

/-- `insert` after the table has room. -/
def insertNode (h : Hashmap ν) (node : ν) : Except Fault (Hashmap ν) := do
  let hash := keyHash (keyOf node)
  if h.bucket node ≠ none then
    .error (.panic "hashmap: attempt to insert an element which is already a member of hashmap")
  else if (h.findNode keyOf hash (keyOf node)).isSome then
    .error (.panic "hashmap: attempt to insert an element with duplicate key")
  else
    let i ← h.selectBucket hash
    let h := { h with hash := Function.update h.hash node hash }.bucketInsert i node
    { h with all := h.all ++ [node], size := h.size + 1 }.proceedRehash true

def insert (h : Hashmap ν) (node : ν) (allocated : Bool) : Except Fault (Bool × Hashmap ν) := do
  let (grown, h) ← if h.size ≥ bucketsCapacity h.curr.count then h.grow allocated else .ok (true, h)
  if grown = false then .ok (false, h)
  else
    let h ← h.insertNode keyOf keyHash node
    .ok (true, h)

end

def remove (h : Hashmap ν) (node : ν) (skipRehash : Bool) : Except Fault (Hashmap ν) := do
  if ¬ h.contains node then
    .error (.panic "hashmap: attempt to remove an element which is not a member of hashmap")
  else
    let h ← h.bucketRemove node
    let h := { h with all := h.all.erase node, size := h.size - 1 }
    if skipRehash then .ok h else h.proceedRehash false

end Hashmap
end Roc.Core
