import RingAllReduce.Races
import RingAllReduce.VerbsRequests

/-! How many bytes the elements of a post have, on queues that ranks with different calls share. -/

namespace RingAllReduce.VerbsRing

open Exchange Rotation VerbsTransport

variable {Value : Type} {setup : Setup Value} {rank size worldSize : Nat} {room : Nat → Bool}

/-- A post of elements of `size` bytes each. -/
def Measured (size : Nat) (post : Post) : Prop :=
  0 < size ∧ post.bytes = post.elementCount * size

theorem Measured.count_eq {post other : Post} (measured : Measured size post)
    (otherMeasured : Measured size other) (bytes : post.bytes = other.bytes) :
    post.elementCount = other.elementCount := by
  rw [measured.2, otherMeasured.2] at bytes
  exact Nat.eq_of_mul_eq_mul_right measured.1 bytes

theorem flowPost_measured {context : Context} {phase : CollectivePhase}
    {step elementSize pieceElements : Nat} {flow : Flow} {post : Post} (sized : 0 < elementSize)
    (member : post ∈ flowPosts context phase step elementSize pieceElements flow) :
    Measured elementSize post := by
  obtain ⟨piece, -, made⟩ := mem_flowPosts.mp member
  obtain ⟨tag, -, rfl⟩ := postFor_ok made
  exact ⟨sized, rfl⟩

theorem callCode_measured {context : Context} {call : Call Value}
    (bound : context.rank < context.worldSize) {event : Event Post}
    (member : event ∈ events (callCode context call)) :
    call.datatype.supported = true ∧ Measured (datatypeSize call.datatype) event.item := by
  by_cases accepted : call.accepted context.worldSize context.rank
  · rw [events_callCode context bound accepted] at member
    obtain ⟨batch, batchIn, itemIn⟩ := item_of_run member
    have sized : 0 < datatypeSize call.datatype := by
      have known : datatypeSize call.datatype ≠ 0 := by simp [datatypeSize_eq_zero, accepted.1]
      omega
    refine ⟨accepted.1, ?_⟩
    obtain ⟨stage, -, inStage⟩ := List.mem_flatMap.mp batchIn
    obtain ⟨index, rfl⟩ := mem_stageBatches inStage
    obtain ⟨recvs, sends⟩ := stageBatch_subset context call.count call.datatype stage index
    rcases List.mem_append.mp itemIn with recv | send
    · exact flowPost_measured sized (recvs recv)
    · exact flowPost_measured sized (sends send)
  · obtain ⟨status, rest, -, quiet, shape⟩ := callCode_rejected context accepted
    rw [shape, events_cons, events_cons, quiet] at member
    simp [Instr.event] at member

def Fabric.posts (fabric : Fabric) (rank : Nat) : List Post :=
  (fabric.sends rank).map SendWork.post ++ (fabric.recvs rank).map RecvWork.post

section Posts

variable {fabric fabric' : Fabric} {memory memory' : Nat → Memory Value} {other : Nat} {post : Post}

theorem send_posted {send : SendWork} (member : send ∈ fabric.sends rank) :
    send.post ∈ fabric.posts rank := List.mem_append_left _ (List.mem_map_of_mem member)

theorem recv_posted {recv : RecvWork} (member : recv ∈ fabric.recvs rank) :
    recv.post ∈ fabric.posts rank := List.mem_append_right _ (List.mem_map_of_mem member)

theorem posts_of_performed {vars vars' : Variables Handle} {instr : Instr}
    (performed : Performed setup room rank vars fabric instr fabric' vars')
    (member : post ∈ fabric'.posts other) :
    post ∈ fabric.posts other ∨ ∃ event, instr.event = some event ∧ event.item = post := by
  cases performed with
  | postRecv posted mode postable hasRoom =>
      by_cases here : other = rank
      · subst here
        simp only [Fabric.posts, Fabric.addRecv, Fabric.receiveWork, Function.update_self,
          List.map_append, List.map_singleton, List.mem_append, List.mem_singleton] at member ⊢
        rcases member with old | old | rfl
        · exact Or.inl (Or.inl old)
        · exact Or.inl (Or.inr old)
        · exact Or.inr ⟨_, rfl, rfl⟩
      · simp only [Fabric.posts, Fabric.addRecv, Function.update_of_ne here] at member
        exact Or.inl member
  | postSend posted mode control unread postable available matched hasRoom =>
      by_cases here : other = rank
      · subst here
        simp only [Fabric.posts, Fabric.addSend, Fabric.sendWork, Fabric.read, Function.update_self,
          List.map_append, List.map_singleton, List.mem_append, List.mem_singleton] at member ⊢
        rcases member with (old | rfl) | old
        · exact Or.inl (Or.inl old)
        · exact Or.inr ⟨_, rfl, rfl⟩
        · exact Or.inl (Or.inr old)
      · simp only [Fabric.posts, Fabric.addSend, Fabric.read, Function.update_of_ne here] at member
        exact Or.inl member
  | waitRecv posted handle request slot found completed => exact Or.inl member
  | waitSend posted handle request slot found completed => exact Or.inl member
  | between instr noEvent vars' requests => exact Or.inl member

theorem posts_of_poll (polled : fabric.poll rank = some fabric') :
    fabric'.posts other = fabric.posts other := by
  unfold Fabric.poll at polled
  split at polled
  · simp at polled
  · rename_i handle completion rest queue
    obtain ⟨kind, place⟩ := handle
    by_cases here : other = rank
    · subst here
      cases kind <;> obtain rfl := Option.some.inj polled <;>
        simp [Fabric.posts, Splits.map_modify_same]
    · cases kind <;> obtain rfl := Option.some.inj polled <;> simp [Fabric.posts, here]

theorem posts_of_device (step : DeviceStep worldSize fabric memory fabric' memory') :
    fabric'.posts other = fabric.posts other := by
  cases step with
  | execute sender place target send recv bound isSend unexecuted sendsBefore isRecv unconsumed
      recvsBefore =>
      simp only [Fabric.posts, Fabric.execute]
      congr 1
      · by_cases here : other = sender
        · subst here
          rw [Function.update_self]
          exact Splits.map_modify_same SendWork.post (by exact fun _ => rfl) _ _
        · rw [Function.update_of_ne here]
      · by_cases here : other = next worldSize sender
        · subst here
          rw [Function.update_self]
          exact Splits.map_modify_same RecvWork.post (by exact fun _ => rfl) _ _
        · rw [Function.update_of_ne here]
  | acknowledge sender place send bound isSend executed unacknowledged =>
      simp only [Fabric.posts, Fabric.acknowledge]
      congr 1
      by_cases here : other = sender
      · subst here
        rw [Function.update_self]
        exact Splits.map_modify_same SendWork.post (by exact fun _ => rfl) _ _
      · rw [Function.update_of_ne here]

end Posts

/-- All that ranks have posted or are about to post is of elements of one size. -/
structure AllMeasured (size worldSize : Nat) (world : VerbsWorld Value) : Prop where
  ahead : ∀ rank < worldSize, ∀ event ∈ events (world.rank rank).todo, Measured size event.item
  posted : ∀ rank < worldSize, ∀ post ∈ world.net.posts rank, Measured size post

section Step

variable {before after : VerbsWorld Value}

theorem AllMeasured.put (measured : AllMeasured size worldSize before)
    {state : RankState Handle} {fabric : Fabric} {memory : Memory Value}
    (ahead : ∀ event ∈ events state.todo, Measured size event.item)
    (posted : ∀ other < worldSize, ∀ post ∈ fabric.posts other,
      post ∈ before.net.posts other ∨ Measured size post) :
    AllMeasured size worldSize (before.put rank state fabric memory) := by
  constructor
  · intro other bound
    by_cases here : other = rank
    · subst here
      rwa [World.put_rank_same]
    · rw [World.put_rank_other _ _ _ _ _ here]
      exact measured.ahead other bound
  · intro other bound post member
    exact (posted other bound post member).elim (measured.posted other bound post) id

theorem AllMeasured.rank_step (measured : AllMeasured size setup.worldSize before)
    (bound : rank < setup.worldSize)
    (elements : ∀ args ∈ setup.calls, args.datatype.supported = true →
      datatypeSize args.datatype = size)
    (taken : RankStep setup (verbsTransport Value room setup.worldSize) rank before after) :
    AllMeasured size setup.worldSize after := by
  have kept : ∀ other < setup.worldSize, ∀ post ∈ before.net.posts other,
      post ∈ before.net.posts other ∨ Measured size post := fun _ _ _ member => Or.inl member
  cases taken with
  | enter call idle succeeded next =>
      refine measured.put (fun event member => ?_) kept
      obtain ⟨typed, ofCall⟩ := callCode_measured bound member
      rwa [elements call (List.mem_of_getElem? next) typed] at ofCall
  | busy instr rest fabric memory todo outcome =>
      exact measured.put (measured.ahead rank bound) fun other otherBound post member =>
        Or.inl (posts_of_poll (perform_busy outcome).1 ▸ member)
  | next instr rest fabric memory vars todo outcome =>
      have ahead := measured.ahead rank bound
      rw [todo, events_cons] at ahead
      refine measured.put (fun event member => ahead event (List.mem_append_right _ member)) ?_
      intro other otherBound post member
      rcases posts_of_performed (perform_next outcome) member with old | ⟨event, isEvent, rfl⟩
      · exact Or.inl old
      · exact Or.inr (ahead event (by simp [isEvent]))
  | stop instr rest fabric memory status todo outcome =>
      obtain ⟨⟨control, rfl⟩, -⟩ := perform_stop outcome
      exact measured.put (by simp [RankState.leave]) kept

theorem AllMeasured.device (measured : AllMeasured size worldSize before) {fabric : Fabric}
    {memory : Nat → Memory Value}
    (step : DeviceStep worldSize before.net before.memory fabric memory) :
    AllMeasured size worldSize { before with net := fabric, memory := memory } :=
  ⟨measured.ahead, fun other bound post member =>
    measured.posted other bound post (posts_of_device step ▸ member)⟩

end Step

/-- A transfer leaves alone what is outside the range of its receive. -/
theorem moveData_outside {send : SendWork} {recv : RecvWork} (source target : Memory Value)
    (destination : send.destination recv = (recv.post.buffer, recv.post.start))
    (count : send.post.elementCount = recv.post.elementCount) {buffer : Buffer} {index : Nat}
    (outside : ¬ recv.post.covers buffer index) :
    moveData source target send recv buffer index = target buffer index := by
  unfold moveData
  split
  · rw [destination]
    apply Memory.store_outside
    by_contra inside
    simp only [not_or, not_not, not_lt, not_le, Memory.load_length, count] at inside
    exact outside ⟨inside.1, inside.2.1, inside.2.2⟩
  · rfl

end RingAllReduce.VerbsRing
