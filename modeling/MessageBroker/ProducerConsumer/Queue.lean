import MessageBroker.Lib.TransitionSystem
import MessageBroker.Lib.Tally

/-! The bounded queue of producer-consumer.c and the system of its lock-protected
blocks, run by any number of producers and consumers. -/

namespace MessageBroker.ProducerConsumer

open MessageBroker.Lib

variable {E P C : Type}

inductive Cell (E : Type)
  | unwritten
  | null
  | elem (e : E)
  deriving DecidableEq

def Cell.stored : Cell E → Option E
  | .elem e => some e
  | _ => none

structure PcQueue (E : Type) where
  buffer : List (Cell E)
  capacity : ℕ
  currentSize : ℕ
  head : ℕ
  tail : ℕ

namespace PcQueue

def pcqCreate (malloc : Bool) (capacity : ℕ) : Option (PcQueue E) :=
  if malloc then some ⟨List.replicate capacity .unwritten, capacity, 0, 0, 0⟩ else none

def enqueueWaits (q : PcQueue E) : Bool :=
  q.currentSize == q.capacity || (q.head == q.tail && q.currentSize != 0)

def enqueueReserve (q : PcQueue E) : PcQueue E :=
  { q with currentSize := q.currentSize + 1 }

def enqueueTransfer (q : PcQueue E) (e : E) : PcQueue E :=
  { q with
    buffer := q.buffer.set q.head (.elem e)
    head := (q.head + 1) % q.capacity }

def dequeueWaits (q : PcQueue E) : Bool :=
  q.currentSize == 0 || (q.tail == q.head && q.currentSize != q.capacity)

def dequeueReserve (q : PcQueue E) : PcQueue E :=
  { q with currentSize := q.currentSize - 1 }

def dequeueData (q : PcQueue E) : Cell E := q.buffer.getD q.tail .unwritten

def dequeueTransfer (q : PcQueue E) : PcQueue E :=
  { q with
    buffer := q.buffer.set q.tail .null
    tail := (q.tail + 1) % q.capacity }

end PcQueue

inductive Producer (E : Type)
  | outside
  | reserving (e : E)
  | storing (e : E)
  deriving DecidableEq

inductive Consumer
  | outside
  | reserving
  | taking
  deriving DecidableEq

def Producer.isStoring : Producer E → Bool
  | .storing _ => true
  | _ => false

def Consumer.isTaking : Consumer → Bool
  | .taking => true
  | _ => false

structure State (E P C : Type) where
  queue : PcQueue E
  producers : P → Producer E
  consumers : C → Consumer
  -- history: calls of pcq_enqueue, stores into the buffer, results of pcq_dequeue,
  -- and elements a store has overwritten
  passed : List E
  stored : List E
  returned : List (Cell E)
  overwritten : List E

inductive Block (E P C : Type)
  | enqueueCall (p : P) (e : E)
  | enqueueReserve (p : P)
  | enqueueTransfer (p : P)
  | dequeueCall (c : C)
  | dequeueReserve (c : C)
  | dequeueTransfer (c : C)
  deriving DecidableEq

def Block.isTransfer : Block E P C → Bool
  | .enqueueTransfer _ | .dequeueTransfer _ => true
  | _ => false

variable [DecidableEq P] [DecidableEq C]

def blockStep (s : State E P C) : Block E P C → Option (State E P C)
  | .enqueueCall p e =>
    match s.producers p with
    | .outside => some { s with
        producers := Function.update s.producers p (.reserving e)
        passed := s.passed ++ [e] }
    | _ => none
  | .enqueueReserve p =>
    match s.producers p with
    | .reserving e =>
      if s.queue.enqueueWaits then none
      else some { s with
        queue := s.queue.enqueueReserve
        producers := Function.update s.producers p (.storing e) }
    | _ => none
  | .enqueueTransfer p =>
    match s.producers p with
    | .storing e => some { s with
        queue := s.queue.enqueueTransfer e
        producers := Function.update s.producers p .outside
        stored := s.stored ++ [e]
        overwritten :=
          s.overwritten ++ (s.queue.buffer.getD s.queue.head .unwritten).stored.toList }
    | _ => none
  | .dequeueCall c =>
    match s.consumers c with
    | .outside => some { s with consumers := Function.update s.consumers c .reserving }
    | _ => none
  | .dequeueReserve c =>
    match s.consumers c with
    | .reserving =>
      if s.queue.dequeueWaits then none
      else some { s with
        queue := s.queue.dequeueReserve
        consumers := Function.update s.consumers c .taking }
    | _ => none
  | .dequeueTransfer c =>
    match s.consumers c with
    | .taking => some { s with
        queue := s.queue.dequeueTransfer
        consumers := Function.update s.consumers c .outside
        returned := s.returned ++ [s.queue.dequeueData] }
    | _ => none

def initial (q : PcQueue E) : State E P C :=
  ⟨q, fun _ => .outside, fun _ => .outside, [], [], [], []⟩

def created (E : Type) (n : ℕ) : PcQueue E := ⟨List.replicate n .unwritten, n, 0, 0, 0⟩

lemma pcqCreate_created (n : ℕ) : PcQueue.pcqCreate true n = some (created E n) := rfl

def blocks (E P C : Type) [DecidableEq P] [DecidableEq C] (n : ℕ) :
    System (State E P C) (Block E P C) where
  init := initial (created E n)
  step := blockStep

end MessageBroker.ProducerConsumer
