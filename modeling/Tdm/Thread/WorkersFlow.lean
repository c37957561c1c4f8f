import Tdm.Thread.WorkersInvariant

/-!
# What a step does to the worker it concerns

One lemma for each way in which the queue, the pipe or the handler of a worker moves:
`Flow` holds again after it.
-/

namespace Tdm.Thread

variable {s s' : State}

namespace Flow

variable {w : Worker} {q : List ℕ}

/-- One more item in the queue, one more dispatcher that owes its byte. -/
theorem push (h : Flow s w q) {i item : ℕ} {m : Msg}
    (hpushed : s'.pushed w = s.pushed w ++ [m]) (hprocessed : s'.processed w = s.processed w)
    (hhandler : s'.handler w = s.handler w) (hpipe : s'.pipe w = s.pipe w)
    (hpending : s'.pending w = insert i (s.pending w)) (hi : i ∉ s.pending w)
    (hmsg : msgOf w.kind s'.heap = msgOf w.kind s.heap)
    (hitem : msgOf w.kind s.heap item = some m) : Flow s' w (q ++ [item]) where
  messages := by
    rw [hpushed, hprocessed, hhandler, hmsg, List.map_append, h.messages]
    simp only [List.map_append, List.append_assoc, List.map_cons, List.map_nil, hitem]
  bytes := by
    rw [hpipe]
    exact h.bytes
  byteRead := by
    rw [hhandler]
    exact h.byteRead
  bytePopped := by
    rw [hhandler]
    exact h.bytePopped
  finite := by
    rw [hpending]
    exact h.finite.insert i
  count := by
    have hcount := h.count
    rw [hpipe, hpending, hhandler, Set.ncard_insert_of_notMem hi h.finite,
      List.length_append, List.length_singleton]
    omega

/-- A dispatcher writes the byte it owes. -/
theorem notify (h : Flow s w q) {i : ℕ}
    (hpushed : s'.pushed w = s.pushed w) (hprocessed : s'.processed w = s.processed w)
    (hhandler : s'.handler w = s.handler w) (hpipe : s'.pipe w = s.pipe w ++ [w.kind.byte])
    (hpending : s'.pending w = s.pending w \ {i}) (hi : i ∈ s.pending w)
    (hheap : s'.heap = s.heap) : Flow s' w q where
  messages := by
    rw [hpushed, hprocessed, hhandler, hheap]
    exact h.messages
  bytes := by
    rw [hpipe]
    intro b hb
    rcases List.mem_append.mp hb with hb | hb
    · exact h.bytes b hb
    · exact List.mem_singleton.mp hb
  byteRead := by
    rw [hhandler]
    exact h.byteRead
  bytePopped := by
    rw [hhandler]
    exact h.bytePopped
  finite := by
    rw [hpending]
    exact h.finite.subset Set.sdiff_subset
  count := by
    have hcount := h.count
    have herase := Set.ncard_sdiff_singleton_add_one hi h.finite
    rw [hpipe, hpending, hhandler, List.length_append, List.length_singleton]
    omega

/-- The handler reads a byte. -/
theorem read (h : Flow s w q) {b : UInt8} {rest : List UInt8}
    (hpushed : s'.pushed w = s.pushed w) (hprocessed : s'.processed w = s.processed w)
    (hidle : s.handler w = .idle) (hhandler : s'.handler w = .read b)
    (hfull : s.pipe w = b :: rest) (hpipe : s'.pipe w = rest)
    (hpending : s'.pending w = s.pending w) (hheap : s'.heap = s.heap) : Flow s' w q where
  messages := by
    have hmessages := h.messages
    rw [hidle] at hmessages
    rw [hpushed, hprocessed, hhandler, hheap]
    exact hmessages
  bytes := by
    rw [hpipe]
    intro b' hb'
    exact h.bytes b' (by rw [hfull]; exact List.mem_cons_of_mem _ hb')
  byteRead := by
    rw [hhandler]
    rintro b' ⟨rfl⟩
    exact h.bytes b (by rw [hfull]; exact List.mem_cons_self ..)
  bytePopped := by
    rw [hhandler]
    nofun
  finite := by
    rw [hpending]
    exact h.finite
  count := by
    have hcount := h.count
    rw [hfull, hidle, List.length_cons] at hcount
    rw [hpipe, hpending, hhandler]
    simp only [HandlerPc.reading] at hcount ⊢
    omega

/-- The handler pops the first item. -/
theorem pop {a : ℕ} (h : Flow s w (a :: q)) {b : UInt8}
    (hpushed : s'.pushed w = s.pushed w) (hprocessed : s'.processed w = s.processed w)
    (hread : s.handler w = .read b) (hhandler : s'.handler w = .popped b a)
    (hpipe : s'.pipe w = s.pipe w) (hpending : s'.pending w = s.pending w)
    (hheap : s'.heap = s.heap) : Flow s' w q where
  messages := by
    have hmessages := h.messages
    rw [hread] at hmessages
    rw [hpushed, hprocessed, hhandler, hheap]
    exact hmessages
  bytes := by
    rw [hpipe]
    exact h.bytes
  byteRead := by
    rw [hhandler]
    nofun
  bytePopped := by
    rw [hhandler]
    rintro b' a' ⟨rfl, rfl⟩
    exact h.byteRead b hread
  finite := by
    rw [hpending]
    exact h.finite
  count := by
    have hcount := h.count
    rw [hread, List.length_cons] at hcount
    rw [hpipe, hpending, hhandler]
    simp only [HandlerPc.reading] at hcount ⊢
    omega

/-- The item in hand holds the next message to process. -/
theorem message_inHand (h : Flow s w q) {b : UInt8} {a : ℕ}
    (hpc : s.handler w = .popped b a) : ∃ m, msgOf w.kind s.heap a = some m := by
  have hmem : msgOf w.kind s.heap a ∈ (s.pushed w).map some := by
    rw [h.messages, hpc]
    exact List.mem_append_right _ (List.mem_cons_self ..)
  obtain ⟨m, -, hm⟩ := List.mem_map.mp hmem
  exact ⟨m, hm.symm⟩

/-- The handler works on the item in hand. -/
theorem process (h : Flow s w q) {b : UInt8} {a : ℕ} {m : Msg}
    (hpushed : s'.pushed w = s.pushed w) (hprocessed : s'.processed w = s.processed w ++ [m])
    (hpc : s.handler w = .popped b a) (hhandler : s'.handler w = .done a)
    (hpipe : s'.pipe w = s.pipe w) (hpending : s'.pending w = s.pending w)
    (hheap : s'.heap = s.heap) (hm : msgOf w.kind s.heap a = some m) : Flow s' w q where
  messages := by
    have hmessages := h.messages
    rw [hpc] at hmessages
    rw [hpushed, hprocessed, hhandler, hheap, hmessages]
    simp only [HandlerPc.inHand, List.map_append, List.map_cons, List.map_nil, hm,
      List.append_assoc, List.nil_append]
  bytes := by
    rw [hpipe]
    exact h.bytes
  byteRead := by
    rw [hhandler]
    nofun
  bytePopped := by
    rw [hhandler]
    nofun
  finite := by
    rw [hpending]
    exact h.finite
  count := by
    have hcount := h.count
    rw [hpc] at hcount
    rw [hpipe, hpending, hhandler]
    exact hcount

/-- The handler is done with its item. -/
theorem free (h : Flow s w q) {a : ℕ}
    (hpushed : s'.pushed w = s.pushed w) (hprocessed : s'.processed w = s.processed w)
    (hpc : s.handler w = .done a) (hhandler : s'.handler w = .idle)
    (hpipe : s'.pipe w = s.pipe w) (hpending : s'.pending w = s.pending w)
    (hmsg : msgOf w.kind s'.heap = msgOf w.kind s.heap) : Flow s' w q where
  messages := by
    have hmessages := h.messages
    rw [hpc] at hmessages
    rw [hpushed, hprocessed, hhandler, hmsg]
    exact hmessages
  bytes := by
    rw [hpipe]
    exact h.bytes
  byteRead := by
    rw [hhandler]
    nofun
  bytePopped := by
    rw [hhandler]
    nofun
  finite := by
    rw [hpending]
    exact h.finite
  count := by
    have hcount := h.count
    rw [hpc] at hcount
    rw [hpipe, hpending, hhandler]
    exact hcount

end Flow

end Tdm.Thread
