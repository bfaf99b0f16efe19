import FinanceIntelligence.JobRuns

/-!
# The event log

Every emitter holds the lock on the job row from the read of the last sequence
to its commit, so the events of a job count from one without a gap, no insert
meets a taken sequence, and a replay returns exactly what a client has missed.

* `eventLog_exact` — all of this, in **every** state of every interleaving.
-/

namespace FinanceIntelligence

open AnalysisEventEngine

section Steps

variable {cfg : EngineConfig} {c : AnalysisCall} {m : Option Mark} {j : Uuid} {r r' : JobRows}

/-- The engine only adds events. -/
theorem EngineChange.events (h : EngineChange cfg r r') : r.events <+: r'.events := by
  cases h with
  | toolCommitted h => exact h.events
  | clarified _ _ _ h => exact h.isPrefix
  | ended _ _ _ h => exact h.isPrefix
  | completed _ _ _ _ _ _ h => exact h.isPrefix

/-- A step of a job only adds events. -/
theorem JobStep.events (h : JobStep cfg c m j r r') : r.events <+: r'.events := by
  cases h with
  | claim _ _ _ _ _ _ hr' => exact hr' ▸ List.prefix_rfl
  | recover _ _ _ _ _ _ hr' =>
    obtain ⟨_, rfl⟩ := hr'
    exact List.prefix_rfl
  | renew _ _ _ _ _ hr' => exact hr' ▸ List.prefix_rfl
  | engine _ _ _ _ hr' => exact hr'.events
  | answerExpired _ _ _ _ _ _ h _ => exact h ▸ List.prefix_rfl
  | answered _ _ _ _ _ _ h => exact h.isPrefix
  | clarificationCancelled _ _ _ _ _ h _ => exact h ▸ List.prefix_rfl
  | clarificationExpired _ _ _ h => exact h.isPrefix
  | analysisCancelled _ _ hr' => exact hr' ▸ List.prefix_rfl
  | saved _ _ _ _ hr' => exact hr' ▸ List.prefix_rfl

end Steps

/-- Events of a job stay, and others come after them. -/
theorem events_later {cfg : EngineConfig} {now : ℕ} {s s' : AnalysisSys}
    (h : AnalysisReachable cfg now s) (hl : (analysisModel cfg).Later s s') {j : Uuid}
    {r : JobRows} (hr : s.db.rows j = some r) :
    ∃ r', s'.db.rows j = some r' ∧ r.events <+: r'.events :=
  rows_later (fun r r' => r.events <+: r'.events) (fun _ => List.prefix_rfl) List.IsPrefix.trans
    (fun hstep => hstep.events) h hl hr

/-! ## Replay -/

/-- Selecting by sequence is dropping a prefix. -/
theorem filter_sequence {l : List AnalysisEvent} {a : ℕ}
    (h : l.map (·.sequence) = List.range' a l.length) (k : ℕ) :
    (l.filter fun e => k < e.sequence) = l.drop (k + 1 - a) := by
  induction l generalizing a with
  | nil => simp
  | cons e l ih =>
    rw [List.map_cons, List.length_cons, List.range'_succ] at h
    obtain ⟨he, hl⟩ := List.cons.inj h
    have ih := ih hl
    by_cases hk : k < a
    · rw [show k + 1 - (a + 1) = 0 by omega, List.drop_zero] at ih
      rw [show k + 1 - a = 0 by omega, List.drop_zero, List.filter_cons_of_pos (by simpa [he]), ih]
    · rw [List.filter_cons_of_neg (by simpa [he] using hk), ih,
        show k + 1 - a = k + 1 - (a + 1) + 1 by omega, List.drop_succ_cons]

/-- A replay of a numbered log is what comes after the sequence. -/
theorem Numbered.replayEvents_eq {r : JobRows} (h : Numbered r.events) (k : ℕ) :
    replayEvents r k = r.events.drop k := by
  have hdrop := filter_sequence h k
  rw [Nat.add_sub_cancel] at hdrop
  have hsorted : (r.events.drop k).Pairwise fun a b => a.sequence ≤ b.sequence := by
    have hseq : (r.events.map (·.sequence)).Pairwise (· ≤ ·) := by
      rw [h]
      exact List.pairwise_le_range'
    exact (List.pairwise_map.mp hseq).sublist (List.drop_sublist k _)
  rw [replayEvents, hdrop, hsorted.insertionSort_eq]

/-- The sequences after `k`. -/
theorem Numbered.drop {l : List AnalysisEvent} (h : Numbered l) (k : ℕ) :
    (l.drop k).map (·.sequence) = List.range' (k + 1) (l.length - k) := by
  rw [List.map_drop, h, List.drop_range']
  simp [Nat.add_comm]

/-! ## The log of a reachable state -/

/-- The events of a job are `1..n`, a replay after `k` returns `k+1..n` in
order, and later states only add events after them. -/
structure LogKept (cfg : EngineConfig) (s : AnalysisSys) (j : Uuid) (r : JobRows) : Prop where
  /-- no gap and no duplicate -/
  sequences : r.events.map (·.sequence) = List.range' 1 r.events.length
  /-- a replay is the rest of the log -/
  replay : ∀ k, replayEvents r k = r.events.drop k
  /-- which carries the sequences after `k` -/
  replayed : ∀ k, (replayEvents r k).map (·.sequence) =
    List.range' (k + 1) (r.events.length - k)
  /-- the order is that of the commits -/
  later : ∀ s', (analysisModel cfg).Later s s' →
    ∃ r', s'.db.rows j = some r' ∧ r.events <+: r'.events

/-- No emitter fails on the sequence of an event, neither at the insert nor at
its commit. -/
structure EmitterUnhindered (s : AnalysisSys) (pr : Proc Row Stmt Answer Mark AnalysisDb Exc
    AnalysisCall) : Prop where
  insert : ∀ j e k, pr.prog = .write (.onJob j (.insertEvent e)) k →
    analysisSchema.check (.onJob j (.insertEvent e)) (analysisSchema.view pr.pending s.db) = true
  commit : ∀ j e k, pr.prog = .commit k →
    analysisSchema.replay pr.pending s.db ≠ .error (.onJob j (.insertEvent e))

/-- **The event log**, in every state of every interleaving. A client that reconnects with the last
sequence it has seen is sent what comes after it, nothing twice and nothing left out. -/
theorem eventLog_exact {cfg : EngineConfig} {now : ℕ} {s : AnalysisSys}
    (h : AnalysisReachable cfg now s) :
    (∀ j r, s.db.rows j = some r → LogKept cfg s j r) ∧
      ∀ p pr, s.proc p = some pr → EmitterUnhindered s pr := by
  have hsafe := analysis_safe h
  refine ⟨fun j r hr => ?_, fun p pr hp => ⟨fun j e k hk => ?_, fun j e k hk => ?_⟩⟩
  · have hn : Numbered r.events := hsafe.inv.numbered j r hr
    refine ⟨hn, hn.replayEvents_eq, fun k => ?_, fun s' hl => events_later h hl hr⟩
    rw [hn.replayEvents_eq, hn.drop]
  · exact hsafe.write_sound hp hk ⟨j, e, rfl⟩
  · exact hsafe.commit_sound hp hk ⟨j, e, rfl⟩

/-- A job that was created and run to its end has six events. -/
theorem eventLog_exact_completed : ∃ (s : AnalysisSys) (r : JobRows), s.db.rows 7 = some r ∧
    r.events.length = 6 ∧ LogKept ⟨.ascii⟩ s 7 r := by
  have hrun : (((analysisModel ⟨.ascii⟩).run
      (Model.serve 0 (.createAnalysis 5 "Akbank 2025-Q4 toplam aktifler" none []) 5 { uuid := 7 } ++
        Model.serve 1 (.runOnce "w") 62 { uuid := 9, normalization := assetsUnderstood })
      (Model.idle (emptyAnalysisDb 100))).bind fun s => (s.db.rows 7).map fun r =>
        r.events.length) = some 6 := by
    decide +kernel
  obtain ⟨s, hs, hr⟩ := Option.bind_eq_some_iff.mp hrun
  obtain ⟨r, hr, hlen⟩ := Option.map_eq_some_iff.mp hr
  have h : AnalysisReachable ⟨.ascii⟩ 100 s :=
    Model.ReachableBy.later .start (Model.LaterBy.of_runBy (fun _ _ _ => trivial) hs)
  exact ⟨s, r, hr, hlen, (eventLog_exact h).1 7 r hr⟩

end FinanceIntelligence
