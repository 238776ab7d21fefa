import RingAllReduce.BootstrapLinks

/-! What has been written and read on the connections, operation by operation. -/

namespace RingAllReduce.Bootstrap

variable {Host : Type}

section Streams

variable {even : Bool} {log rest : List Action} {side : Side} {data : ExchangeData}

@[simp] theorem octets_length (origin : Origin) (bytes : List UInt8) :
    (octets origin bytes).length = bytes.length := List.length_map ..

@[simp] theorem octets_values (origin : Origin) (bytes : List UInt8) :
    (octets origin bytes).map Octet.value = bytes := by
  simp [octets, Function.comp_def]

theorem exchange_before_ready (side : Side) :
    Ordered (.writeExchange side) (.writeReady side) := by
  cases side <;> decide

theorem exchange_read_before_ready (side : Side) :
    Ordered (.readExchange side) (.readReady side) := by
  cases side <;> decide

theorem sent_exchange (program : log ++ .writeExchange side :: rest = connectProcessGroup even) :
    sent data side (log ++ [.writeExchange side]) =
      sent data side log ++ octets .exchange data.bytes := by
  have first := head_absent program
  have second := after_head program (exchange_before_ready side)
  simp [sent, first, second]

theorem sent_ready (program : log ++ .writeReady side :: rest = connectProcessGroup even) :
    sent data side (log ++ [.writeReady side]) = sent data side log ++ octets .ready [1] := by
  have first := before_head program (exchange_before_ready side)
  have second := head_absent program
  simp [sent, first, second]

theorem taken_exchange (program : log ++ .readExchange side :: rest = connectProcessGroup even) :
    taken side log = 0 ∧ taken side (log ++ [.readExchange side]) = 8 := by
  have first := head_absent program
  have second := after_head program (exchange_read_before_ready side)
  simp [taken, first, second]

theorem taken_ready (program : log ++ .readReady side :: rest = connectProcessGroup even) :
    taken side log = 8 ∧ taken side (log ++ [.readReady side]) = 8 + 1 := by
  have first := before_head program (exchange_read_before_ready side)
  have second := head_absent program
  simp [taken, first, second]

theorem taken_write {action : Action} (writes : ∀ side, action ≠ .readExchange side ∧
    action ≠ .readReady side) (side : Side) : taken side (log ++ [action]) = taken side log := by
  obtain ⟨exchange, ready⟩ := writes side
  simp [taken, exchange.symm, ready.symm]

theorem sent_read {action : Action} (reads : ∀ side, action ≠ .writeExchange side ∧
    action ≠ .writeReady side) (side : Side) :
    sent data side (log ++ [action]) = sent data side log := by
  obtain ⟨exchange, ready⟩ := reads side
  simp [sent, exchange.symm, ready.symm]

theorem sent_starts {todo : List Action} (program : log ++ todo = connectProcessGroup even)
    {more : List Octet} (idle : todo ≠ [] → more = []) {count : Nat} (positive : 0 < count)
    (enough : count ≤ (sent data side log ++ more).length) :
    ∃ tail, sent data side log ++ more = octets .exchange data.bytes ++ tail := by
  by_cases written : .writeExchange side ∈ log
  · refine ⟨(if .writeReady side ∈ log then octets .ready [1] else []) ++ more, ?_⟩
    simp only [sent, written, if_true, List.append_assoc]
  · have unready : .writeReady side ∉ log := by
      intro ready
      exact written (mem_of_ordered program (exchange_before_ready side) ready)
    have busy : todo ≠ [] := by
      rintro rfl
      rw [List.append_nil] at program
      apply written
      rw [program]
      cases side <;> cases even <;> decide
    simp [sent, written, unready, idle busy] at enough
    omega

theorem sent_continues {todo : List Action} (program : log ++ todo = connectProcessGroup even)
    {more : List Octet} (idle : todo ≠ [] → more = [])
    (enough : 8 < (sent data side log ++ more).length) :
    .writeReady side ∈ log ∧
      (sent data side log ++ more).drop 8 = octets .ready [1] ++ more := by
  by_cases ready : .writeReady side ∈ log
  · have written := mem_of_ordered program (exchange_before_ready side) ready
    refine ⟨ready, ?_⟩
    simp only [sent, written, ready, if_true, List.append_assoc]
    exact List.drop_left' (by simp)
  · have busy : todo ≠ [] := by
      rintro rfl
      rw [List.append_nil] at program
      apply ready
      rw [program]
      cases side <;> cases even <;> decide
    exfalso
    simp only [sent, ready, if_false, List.append_nil, idle busy] at enough
    split at enough <;> simp at enough

end Streams

section Transfers

variable {cluster : Cluster Host} {rank : Nat} {client server here : RankState} {net after : Net}

theorem LinkWired.client_writes (link : LinkWired cluster rank client server net)
    {action : Action} {content : List Octet} (log : here.log = client.log ++ [action])
    (writes : ∀ side, action ≠ .readExchange side ∧ action ≠ .readReady side)
    (other : action ≠ .connectToHost) (busy : client.todo ≠ [])
    (adds : sent (cluster.exchangeData rank .next) .next here.log =
      sent (cluster.exchangeData rank .next) .next client.log ++ content) :
    LinkWired cluster rank here server (net.write rank content .next) := by
  have connected : .connectToHost ∈ here.log ↔ .connectToHost ∈ client.log := by
    simp [log, other.symm]
  have takenEq : taken .next here.log = taken .next client.log := by
    rw [log, taken_write writes]
  obtain ⟨more, fetched, bound, stream, origins, serverBusy, clientBusy⟩ := link.toClient
  have enough := link.toServerBound
  refine ⟨fun asked => link.asked (connected.mp asked), fun made => connected.mpr (link.made made),
    ?_, ?_, ?_, more, fetched, ?_, ?_, origins, serverBusy, fun _ => clientBusy busy⟩
  · simp only [connected]
    exact link.listener
  · rw [adds, List.length_append]
    omega
  · rw [adds, List.drop_append_of_le_length enough, ← link.toServer]
    simp [Net.write]
  · rw [takenEq]
    exact bound
  · rw [takenEq]
    exact stream

theorem LinkWired.server_writes (link : LinkWired cluster rank client server net)
    {action : Action} {content : List Octet} (log : here.log = server.log ++ [action])
    (writes : ∀ side, action ≠ .readExchange side ∧ action ≠ .readReady side)
    (other : action ≠ .listen ∧ action ≠ .accept) (busy : server.todo ≠ [])
    (adds : sent (cluster.peerData rank .next) .previous here.log =
      sent (cluster.peerData rank .next) .previous server.log ++ content) :
    LinkWired cluster rank client here (net.write rank content .previous) := by
  have listening : .listen ∈ here.log ↔ .listen ∈ server.log := by
    simp [log, other.1.symm]
  have accepted : .accept ∈ here.log ↔ .accept ∈ server.log := by
    simp [log, other.2.symm]
  have takenEq : taken .previous here.log = taken .previous server.log := by
    rw [log, taken_write writes]
  obtain ⟨more, fetched, bound, stream, origins, serverBusy, clientBusy⟩ := link.toClient
  obtain rfl : more = [] := serverBusy busy
  rw [List.append_nil] at bound stream
  refine ⟨fun asked => listening.mpr (link.asked asked), fun made => link.made (accepted.mp made),
    ?_, ?_, ?_, [], fetched, ?_, ?_, by simp, fun _ => rfl, clientBusy⟩
  · simp only [listening, accepted]
    exact link.listener
  · rw [takenEq]
    exact link.toServerBound
  · rw [takenEq]
    exact link.toServer
  · rw [adds, List.append_nil, List.length_append]
    omega
  · rw [adds, List.append_nil, List.drop_append_of_le_length bound, ← stream]
    simp [Net.write]

theorem LinkWired.client_reads (link : LinkWired cluster rank client server net)
    {action : Action} {count : Nat} {bytes : List UInt8}
    (log : here.log = client.log ++ [action])
    (reads : ∀ side, action ≠ .writeExchange side ∧ action ≠ .writeReady side)
    (other : action ≠ .connectToHost) (busy : client.todo ≠ [])
    (adds : taken .next here.log = taken .next client.log + count)
    (read : net.read rank count .next = some (bytes, after)) :
    LinkWired cluster rank here server after := by
  have connected : .connectToHost ∈ here.log ↔ .connectToHost ∈ client.log := by
    simp [log, other.symm]
  have sentEq : ∀ data, sent data .next here.log = sent data .next client.log := by
    intro data
    rw [log, sent_read reads]
  obtain ⟨more, fetched, bound, stream, origins, serverBusy, clientBusy⟩ := link.toClient
  obtain rfl : fetched = 0 := clientBusy busy
  simp only [Net.read] at read
  split at read
  · simp at read
  · rename_i enough
    simp only [Option.some.injEq, Prod.mk.injEq] at read
    obtain ⟨-, rfl⟩ := read
    rw [stream, List.length_drop] at enough
    refine ⟨fun asked => link.asked (connected.mp asked),
      fun made => connected.mpr (link.made made), ?_, ?_, ?_, more, 0, ?_, ?_, origins, serverBusy,
      fun _ => rfl⟩
    · simp only [connected]
      exact link.listener
    · rw [sentEq]
      exact link.toServerBound
    · rw [sentEq]
      exact link.toServer
    · omega
    · simp only [Function.update_self, stream, List.drop_drop, adds, Nat.add_zero]

theorem LinkWired.server_reads (link : LinkWired cluster rank client server net)
    {action : Action} {count : Nat} {bytes : List UInt8}
    (log : here.log = server.log ++ [action])
    (reads : ∀ side, action ≠ .writeExchange side ∧ action ≠ .writeReady side)
    (other : action ≠ .listen ∧ action ≠ .accept) (busy : server.todo ≠ [])
    (adds : taken .previous here.log = taken .previous server.log + count)
    (read : net.read rank count .previous = some (bytes, after)) :
    LinkWired cluster rank client here after := by
  have listening : .listen ∈ here.log ↔ .listen ∈ server.log := by
    simp [log, other.1.symm]
  have accepted : .accept ∈ here.log ↔ .accept ∈ server.log := by
    simp [log, other.2.symm]
  have sentEq : ∀ data, sent data .previous here.log = sent data .previous server.log := by
    intro data
    rw [log, sent_read reads]
  obtain ⟨more, fetched, bound, stream, origins, serverBusy, clientBusy⟩ := link.toClient
  simp only [Net.read] at read
  split at read
  · simp at read
  · rename_i enough
    simp only [Option.some.injEq, Prod.mk.injEq] at read
    obtain ⟨-, rfl⟩ := read
    rw [link.toServer, List.length_drop] at enough
    have before := link.toServerBound
    refine ⟨fun asked => listening.mpr (link.asked asked),
      fun made => link.made (accepted.mp made), ?_, ?_, ?_, more, fetched, ?_, ?_, origins,
      fun _ => serverBusy busy, clientBusy⟩
    · simp only [listening, accepted]
      exact link.listener
    · omega
    · simp only [Function.update_self, link.toServer, List.drop_drop, adds]
    · rw [sentEq]
      exact bound
    · rw [sentEq]
      exact stream

theorem LinkWired.client_bytes (link : LinkWired cluster rank client server net)
    (busy : client.todo ≠ []) {count : Nat} {bytes : List UInt8}
    (read : net.read rank count .next = some (bytes, after)) :
    ∃ more, (server.todo ≠ [] → more = []) ∧
      taken .next client.log + count ≤
        (sent (cluster.peerData rank .next) .previous server.log ++ more).length ∧
      bytes = (((sent (cluster.peerData rank .next) .previous server.log ++ more).drop
        (taken .next client.log)).take count).map Octet.value := by
  obtain ⟨more, fetched, bound, stream, -, serverBusy, clientBusy⟩ := link.toClient
  obtain rfl : fetched = 0 := clientBusy busy
  rw [Nat.add_zero] at bound stream
  simp only [Net.read] at read
  split at read
  · simp at read
  · rename_i enough
    simp only [Option.some.injEq, Prod.mk.injEq] at read
    rw [stream, List.length_drop] at enough
    exact ⟨more, serverBusy, by omega, by rw [← read.1, stream]⟩

theorem LinkWired.server_bytes (link : LinkWired cluster rank client server net) {count : Nat}
    {bytes : List UInt8} (read : net.read rank count .previous = some (bytes, after)) :
    taken .previous server.log + count ≤
        (sent (cluster.exchangeData rank .next) .next client.log ++ []).length ∧
      bytes = (((sent (cluster.exchangeData rank .next) .next client.log ++ []).drop
        (taken .previous server.log)).take count).map Octet.value := by
  have before := link.toServerBound
  simp only [Net.read] at read
  split at read
  · simp at read
  · rename_i enough
    simp only [Option.some.injEq, Prod.mk.injEq] at read
    rw [link.toServer, List.length_drop] at enough
    rw [List.append_nil]
    exact ⟨by omega, by rw [← read.1, link.toServer]⟩

end Transfers

end RingAllReduce.Bootstrap
