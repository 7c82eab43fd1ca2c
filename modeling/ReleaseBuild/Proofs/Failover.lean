import ReleaseBuild.Proofs.ToolCalls
/-!
# Timestamp failover

Timestamping a signed file tries the configured servers in order. Each attempt is one call of the
sign tool, `<tool> timestamp /t <server> <file>`. An attempt that exits with code 0 ends the search
with success, and one whose tool cannot be launched ends it with that failure. Any other status,
an exit without a code included, is reported and the next server is tried; when none is left,
timestamping fails naming the file and every server.

`Signing.timestamp_failover` states this for every list of servers, duplicates and the empty list
included, and for every way the tools answer: with `k` the first attempt whose answer ends the
search, the calls made are those of the first `k + 1` servers, and the result is read off the
answer to attempt `k`, or is exhaustion when there is no such attempt. It also states that signing
and timestamping makes the sign call first and goes on to timestamp only when that call exited
with code 0.

The answers are those of a responding runner (`Runner.responding`), each read from the calls made
before it. The attempts' answers are therefore fixed before the run (`answersAlong`), so the first
attempt that ends the search is a `List.findIdx` over them. The proof is one step lemma, what the
first server does (`run'_tryServers_cons`), and an induction over the servers.
-/

set_option autoImplicit false

namespace ReleaseBuild

/-- Whether an answer ends a failover: the tool exited with code 0, or could not be launched. An
exit without a code is a failure like any other and lets the next server be tried. -/
def Answer.endsFailover : Answer → Bool
  | .ok s => s.code == some 0
  | .error _ => true

/-- The answers that calls made one after the other get, each answered from all the calls made
before it. -/
def answersAlong (answer : List ToolCall → ToolCall → Answer) (history : List ToolCall) :
    List ToolCall → List Answer
  | [] => []
  | call :: rest => answer history call :: answersAlong answer (history ++ [call]) rest

namespace Signing

open BuildConfiguration ReleaseM

variable (s : SigningConfig) (file : String)

/-- **One attempt.** Trying the servers makes the first server's timestamp call after a log line.
Success ends the search, a launch failure ends timestamping, and any other status is reported
before the rest of the servers are tried. -/
theorem run'_tryServers_cons (server : String) (rest : List String) (r : Runner) (m : Machine) :
    (tryServers s file (server :: rest)).run' r m =
      let attempt := r.run (timestampCommand s server file)
        (m.emit (.log ⟨.info, .signing, "Timestamping " ++ file ++ " using " ++ server⟩))
      match attempt.1 with
      | .error e =>
        (.error (.toolLaunch timestampToolName (timestampCall s server file).command e), attempt.2)
      | .ok st =>
        if st.success then (.ok true, attempt.2)
        else (tryServers s file rest).run' r (attempt.2.emit (.log ⟨.warn, .signing,
          "timestamp server " ++ server ++ " failed with " ++ st.display⟩)) := by
  have hshown : (timestampCommand s server file).display = (timestampCall s server file).command :=
    congrArg ToolCall.command (timestampCommand_call s server file)
  simp only [tryServers, run'_bind, ReleaseM.info, run'_log, run'_runTool, hshown]
  rcases r.run (timestampCommand s server file)
    (m.emit (.log ⟨.info, .signing, "Timestamping " ++ file ++ " using " ++ server⟩)) with
    ⟨_ | st, m'⟩
  · rfl
  · by_cases hs : st.success = true <;> simp [hs, ReleaseM.warn, run'_bind]

variable (answer : List ToolCall → ToolCall → Answer) (effect : Invocation → Machine → Machine)

/-- **Failover, for every list of servers.** Under a responding runner, trying the servers makes
the timestamp calls of the servers up to the first attempt whose answer ends the search. That
attempt's answer decides: success, or the failure to launch it; with no such attempt every server
was tried and none succeeded. -/
theorem run'_tryServers_eq (servers : List String) (m : Machine) :
    let answers := answersAlong answer m.calls (servers.map (timestampCall s · file))
    let k := answers.findIdx Answer.endsFailover
    let run := (tryServers s file servers).run' (Runner.responding answer effect) m
    run.2.calls = m.calls ++ (servers.map (timestampCall s · file)).take (k + 1) ∧
      run.1 = match (servers.zip answers)[k]? with
        | some (_, .ok _) => .ok true
        | some (server, .error e) =>
          .error (.toolLaunch timestampToolName (timestampCall s server file).command e)
        | none => .ok false := by
  induction servers generalizing m with
  | nil => simp [tryServers, answersAlong]
  | cons server rest ih =>
    intro answers k run
    -- the first attempt is answered from the calls made so far; its call is recorded after them
    have hcall : ((Runner.responding answer effect).run (timestampCommand s server file)
        (m.emit (.log ⟨.info, .signing, "Timestamping " ++ file ++ " using " ++ server⟩))).2.calls =
        m.calls ++ [timestampCall s server file] := by
      simp [timestampCommand_call]
    have hanswer : ((Runner.responding answer effect).run (timestampCommand s server file)
        (m.emit (.log ⟨.info, .signing, "Timestamping " ++ file ++ " using " ++ server⟩))).1 =
        answer m.calls (timestampCall s server file) := by
      simp [timestampCommand_call]
    simp only [run, answers, k, run'_tryServers_cons, hanswer, List.map_cons, answersAlong,
      List.findIdx_cons, List.zip_cons_cons]
    rcases hans : answer m.calls (timestampCall s server file) with e | st
    · -- a launch failure ends the search at this attempt
      simp only [Answer.endsFailover, cond_true, List.take_succ_cons, List.take_zero,
        List.getElem?_cons_zero, and_true]
      exact hcall
    · by_cases hs : st.success = true
      · -- so does an exit with code 0
        have hcode : (st.code == some 0) = true := by simpa [ToolStatus.success] using hs
        simp only [Answer.endsFailover, hcode, hs, cond_true, if_true, List.take_succ_cons,
          List.take_zero, List.getElem?_cons_zero, and_true]
        exact hcall
      · -- any other status is reported, and the rest of the servers are tried after its call
        have hcode : (st.code == some 0) = false := by simpa [ToolStatus.success] using hs
        obtain ⟨hcalls, hres⟩ := ih (((Runner.responding answer effect).run
          (timestampCommand s server file) (m.emit (.log ⟨.info, .signing,
            "Timestamping " ++ file ++ " using " ++ server⟩))).2.emit (.log ⟨.warn, .signing,
            "timestamp server " ++ server ++ " failed with " ++ st.display⟩))
        simp only [Machine.emit_calls, hcall] at hcalls hres
        simp only [Answer.endsFailover, hcode, hs, Bool.false_eq_true, if_false, cond_false,
          List.take_succ_cons, List.getElem?_cons_succ]
        exact ⟨by simpa using hcalls, hres⟩

/-- **Timestamping.** The calls are those of the failover, and the result is success when the
deciding attempt exited with code 0, the launch failure of that attempt when it could not be
launched, and exhaustion of the file and every server when no attempt decided. -/
theorem run'_timestamp (servers : List String) (m : Machine) :
    let answers := answersAlong answer m.calls (servers.map (timestampCall s · file))
    let k := answers.findIdx Answer.endsFailover
    let run := (timestamp s servers file).run' (Runner.responding answer effect) m
    run.2.calls = m.calls ++ (servers.map (timestampCall s · file)).take (k + 1) ∧
      run.1 = match (servers.zip answers)[k]? with
        | some (_, .ok _) => .ok ()
        | some (server, .error e) =>
          .error (.toolLaunch timestampToolName (timestampCall s server file).command e)
        | none => .error (.timestampExhausted file servers) := by
  obtain ⟨hcalls, hres⟩ := run'_tryServers_eq s file answer effect servers m
  dsimp only at hcalls hres ⊢
  generalize (servers.zip (answersAlong answer m.calls (servers.map (timestampCall s · file))))[
    (answersAlong answer m.calls (servers.map (timestampCall s · file))).findIdx
      Answer.endsFailover]? = attempt at hres ⊢
  simp only [timestamp, run'_bind]
  generalize (tryServers s file servers).run' (Runner.responding answer effect) m = tried
    at hcalls hres ⊢
  obtain ⟨res, m'⟩ := tried
  dsimp only at hcalls hres
  subst hres
  -- the deciding attempt settles the result: a success goes through, no attempt is exhaustion
  rcases attempt with _ | ⟨server, e | st⟩ <;> simp [hcalls]

/-- Signing and timestamping makes the sign call first. When that call did not exit with code 0
the run ends there, with the sign tool's failure; otherwise timestamping runs from the machine
the sign call left. -/
theorem run'_signAndTimestamp (servers : List String) (m : Machine) :
    ∃ m₁ : Machine, m₁.calls = m.calls ++ [signCall s file] ∧
      (signAndTimestamp s servers file).run' (Runner.responding answer effect) m =
        match answer m.calls (signCall s file) with
        | .error e => (.error (.toolLaunch signToolName (signCall s file).command e), m₁)
        | .ok st =>
          if st.success then (timestamp s servers file).run' (Runner.responding answer effect) m₁
          else (.error (.toolFailed signToolName (signCall s file).command st), m₁) := by
  have hshown : (signCommand s file).display = (signCall s file).command :=
    congrArg ToolCall.command (signCommand_call s file)
  -- the sign call is answered from the calls made so far, and recorded after them
  have hcall : ((Runner.responding answer effect).run (signCommand s file)
      (m.emit (.log ⟨.info, .signing, "Signing " ++ file⟩))).2.calls =
      m.calls ++ [signCall s file] := by
    simp [signCommand_call]
  have hanswer : ((Runner.responding answer effect).run (signCommand s file)
      (m.emit (.log ⟨.info, .signing, "Signing " ++ file⟩))).1 = answer m.calls (signCall s file) := by
    simp [signCommand_call]
  refine ⟨_, hcall, ?_⟩
  simp only [signAndTimestamp, sign, run'_bind, ReleaseM.info, run'_log, run'_runChecked,
    hanswer, hshown]
  rcases answer m.calls (signCall s file) with e | st
  · rfl
  · by_cases hs : st.success = true <;> simp [hs]

/-- **Timestamp failover.** For every signer, list of servers (empty or with duplicates), file and
way the tools answer, let `k` be the first attempt whose answer is an exit with code 0 or a launch
failure. Timestamping calls `<tool> timestamp /t <server> <file>` for the servers up to `k` in
order, or for all of them when there is no such attempt, and then succeeds when attempt `k` exited
with code 0, fails with that attempt's launch failure when it could not be launched, and otherwise
fails with the file and the servers exhausted. Signing and timestamping makes the sign call first
and makes no timestamp call unless it exited with code 0. -/
theorem timestamp_failover :
    (∀ (servers : List String) (m : Machine),
      let answers := answersAlong answer m.calls (servers.map (timestampCall s · file))
      let k := answers.findIdx Answer.endsFailover
      let run := (timestamp s servers file).run' (Runner.responding answer effect) m
      run.2.calls = m.calls ++ (servers.map (timestampCall s · file)).take (k + 1) ∧
        run.1 = match (servers.zip answers)[k]? with
          | some (_, .ok _) => .ok ()
          | some (server, .error e) =>
            .error (.toolLaunch timestampToolName (timestampCall s server file).command e)
          | none => .error (.timestampExhausted file servers)) ∧
    (∀ (servers : List String) (m : Machine),
      ∃ m₁ : Machine, m₁.calls = m.calls ++ [signCall s file] ∧
        (signAndTimestamp s servers file).run' (Runner.responding answer effect) m =
          match answer m.calls (signCall s file) with
          | .error e => (.error (.toolLaunch signToolName (signCall s file).command e), m₁)
          | .ok st =>
            if st.success then (timestamp s servers file).run' (Runner.responding answer effect) m₁
            else (.error (.toolFailed signToolName (signCall s file).command st), m₁)) :=
  ⟨run'_timestamp s file answer effect, run'_signAndTimestamp s file answer effect⟩

end Signing

end ReleaseBuild
