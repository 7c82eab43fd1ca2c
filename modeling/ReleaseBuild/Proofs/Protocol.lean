import ReleaseBuild.Proofs.Run
/-!
# Protocols of tool calls

A release that gets through runs its tools in a fixed order, and one that does not stops at its
first fatal step. The order is a protocol: a list of phases, each one call that must exit with
code 0, or a failover of calls tried in turn until one exits with code 0. Given how the tools
answer, a protocol has one outcome, its `Course`: the calls it makes, up to and including the
first fatal one, and whether it got through.

A computation follows a protocol (`Follows`) when, under every responding runner, its calls are
a prefix of the outcome's, it succeeds only when the whole protocol got through, a tool's failure
ends it exactly at the protocol's fatal step, and reaching that step ends it with a failure. What
lies between the calls, file operations, may stop it anywhere, with a failure of its own.

Following is compositional: a computation made of parts that follow protocols follows their
concatenation (`Follows.bind`). This rests on the outcome of a concatenation being the outcome of
its first part, continued by the second from the calls the first made (`outcome_append`), the
way a tape of answers acts on a machine.
-/

set_option autoImplicit false

namespace ReleaseBuild

variable {α β γ : Type}

/-- How a tool call was answered: the tool's exit status, or why it could not be launched. -/
abbrev Answer := Except IoError ToolStatus

/-- Whether an answer lets a run go on: the tool exited with code 0. -/
def Answer.succeeded : Answer → Bool
  | .ok s => s.code == some 0
  | .error _ => false

/-- A step of a protocol of tool calls. -/
inductive Phase where
  /-- One call that must exit with code 0. -/
  | checked (call : ToolCall)
  /-- Calls tried in order until one exits with code 0. One that cannot be launched ends the
  run, one that fails otherwise gives way to the next, and when all have failed the run ends. -/
  | failover (calls : List ToolCall)
  /-- A step that cannot be taken: the run ends there without a call. -/
  | halt
  deriving DecidableEq, Repr

/-- A protocol: its phases in the order they are run. -/
abbrev Protocol := List Phase

/-- The course of a protocol: the calls it made and whether it got through. -/
structure Course where
  calls : List ToolCall
  completed : Bool
  deriving DecidableEq, Repr

section Outcomes

variable (answer : List ToolCall → ToolCall → Answer)

/-- The calls of a failover given the answers, each call answered from the calls made before
it: the calls tried, up to the first that exits with code 0 or cannot be launched. -/
def Phase.failoverOutcome (history : List ToolCall) : List ToolCall → Course
  | [] => ⟨[], false⟩
  | call :: rest =>
    match answer history call with
    | .error _ => ⟨[call], false⟩
    | .ok s =>
      if s.code = some 0 then ⟨[call], true⟩
      else
        let o := Phase.failoverOutcome (history ++ [call]) rest
        ⟨call :: o.calls, o.completed⟩

/-- The outcome of one phase after the calls `history`. -/
def Phase.outcome (history : List ToolCall) : Phase → Course
  | checked call => ⟨[call], (answer history call).succeeded⟩
  | failover calls => Phase.failoverOutcome answer history calls
  | halt => ⟨[], false⟩

/-- The outcome of a protocol after the calls `history`: its phases in turn, each answered from
the calls made before it, stopping after the first that does not get through. -/
def Protocol.outcome (history : List ToolCall) : Protocol → Course
  | [] => ⟨[], true⟩
  | p :: ps =>
    let o := p.outcome answer history
    if o.completed then
      let o' := Protocol.outcome (history ++ o.calls) ps
      ⟨o.calls ++ o'.calls, o'.completed⟩
    else o

/-- The outcome `o` continued by the protocol `qs`, from the calls made before and during `o`;
a protocol that did not get through is not continued. -/
def Course.andThen (history : List ToolCall) (o : Course) (qs : Protocol) : Course :=
  if o.completed then
    let o' := Protocol.outcome answer (history ++ o.calls) qs
    ⟨o.calls ++ o'.calls, o'.completed⟩
  else o

@[simp] theorem Protocol.outcome_nil (history : List ToolCall) :
    Protocol.outcome answer history [] = ⟨[], true⟩ := rfl

/-- Continuing by nothing changes nothing. -/
@[simp] theorem Course.andThen_nil (history : List ToolCall) (o : Course) :
    o.andThen answer history [] = o := by
  unfold Course.andThen
  split
  · next h => cases o; simp_all
  · rfl

theorem Protocol.outcome_cons (history : List ToolCall) (p : Phase) (ps : Protocol) :
    Protocol.outcome answer history (p :: ps) =
      (p.outcome answer history).andThen answer history ps := rfl

/-- A protocol of one phase has that phase's outcome. -/
theorem Protocol.outcome_singleton (history : List ToolCall) (p : Phase) :
    Protocol.outcome answer history [p] = p.outcome answer history := by
  rw [outcome_cons, Course.andThen_nil]

/-- **A protocol acts on the calls made.** The outcome of `ps ++ qs` is the outcome of `ps`,
continued by `qs` from the calls `ps` made. -/
theorem Protocol.outcome_append (history : List ToolCall) (ps qs : Protocol) :
    Protocol.outcome answer history (ps ++ qs) =
      (Protocol.outcome answer history ps).andThen answer history qs := by
  induction ps generalizing history with
  | nil => simp [Course.andThen]
  | cons p ps ih =>
    rw [List.cons_append, outcome_cons, outcome_cons]
    -- the first phase either stops the run in both, or both go on from its calls
    by_cases hp : (p.outcome answer history).completed
    · have hrest := ih (history ++ (p.outcome answer history).calls)
      by_cases hps :
          (Protocol.outcome answer (history ++ (p.outcome answer history).calls) ps).completed
      · simp only [Course.andThen, hp, hps, if_true] at hrest ⊢
        simp [hrest, List.append_assoc]
      · simp only [Course.andThen, hp, hps, if_true] at hrest ⊢
        simp [hrest, hps]
    · simp [Course.andThen, hp]

end Outcomes

/-! ## Runs that conform to an outcome -/

/-- The calls `t` a run made and its result `res` agree with the outcome `o` its protocol
expects. -/
structure Conforms (o : Course) (t : List ToolCall) (res : Except Failure α) : Prop where
  /-- No call is made out of order, and none after the protocol's fatal step. -/
  ordered : t <+: o.calls
  /-- A run succeeds only after every call, when the protocol got through. -/
  of_ok : ∀ a, res = .ok a → t = o.calls ∧ o.completed = true
  /-- A tool's failure ends the run exactly at the protocol's fatal step. -/
  of_toolFailure : ∀ f, res = .error f → f.isToolFailure = true → t = o.calls ∧ o.completed = false
  /-- Reaching the protocol's fatal step ends the run with a failure. -/
  fails_at_stop : t = o.calls → o.completed = false → ∃ f, res = .error f

namespace Conforms

variable {o : Course} {t : List ToolCall}

/-- A run that makes no call and never fails for a tool's reason conforms to the empty
protocol. -/
theorem quiet {res : Except Failure α} (h : ∀ f, res = .error f → f.isToolFailure = false) :
    Conforms ⟨[], true⟩ [] res where
  ordered := List.prefix_refl _
  of_ok _ _ := ⟨rfl, rfl⟩
  of_toolFailure f hf htool := by simp [h f hf] at htool
  fails_at_stop _ h := by cases h

/-- A run that made every call of a protocol that got through, and succeeded. -/
theorem completed (h : o.completed = true) (a : α) : Conforms o o.calls (.ok a) where
  ordered := List.prefix_refl _
  of_ok _ _ := ⟨rfl, h⟩
  of_toolFailure _ h _ := by cases h
  fails_at_stop _ h' := by rw [h] at h'; cases h'

/-- A run that made every call up to the protocol's fatal step, and failed there. -/
theorem stopped (h : o.completed = false) (e : Failure) :
    Conforms o o.calls (.error e : Except Failure α) where
  ordered := List.prefix_refl _
  of_ok _ h := by cases h
  of_toolFailure _ _ _ := ⟨rfl, h⟩
  fails_at_stop _ _ := ⟨e, rfl⟩

/-- A run that failed before any call, for a reason that is not a tool's, conforms to every
outcome: it ended before the protocol's fatal step. -/
theorem aborted {e : Failure} (h : e.isToolFailure = false) :
    Conforms o [] (.error e : Except Failure α) where
  ordered := List.nil_prefix
  of_ok _ h := by cases h
  of_toolFailure _ hf htool := by
    cases hf
    simp [h] at htool
  fails_at_stop _ _ := ⟨e, rfl⟩

/-- A run that got through `o` and went on to conform to `o'` conforms to the two together. -/
theorem append {o' : Course} {t' : List ToolCall} {res : Except Failure α}
    (h : Conforms o' t' res) :
    Conforms ⟨o.calls ++ o'.calls, o'.completed⟩ (o.calls ++ t') res where
  ordered := (List.prefix_append_right_inj _).2 h.ordered
  of_ok a ha := by
    obtain ⟨rfl, hok⟩ := h.of_ok a ha
    exact ⟨rfl, hok⟩
  of_toolFailure f hf htool := by
    obtain ⟨rfl, hstop⟩ := h.of_toolFailure f hf htool
    exact ⟨rfl, hstop⟩
  fails_at_stop heq hstop := h.fails_at_stop (List.append_cancel_left heq) hstop

/-- A run that failed while conforming to `o` conforms to `o` continued by anything: a tool's
failure stopped the protocol there, and any other failure came before its end. -/
theorem andThen (answer : List ToolCall → ToolCall → Answer) (history : List ToolCall) {e : Failure}
    (h : Conforms o t (.error e : Except Failure α)) (qs : Protocol) :
    Conforms (o.andThen answer history qs) t (.error e : Except Failure β) where
  ordered := by
    unfold Course.andThen
    split
    · exact h.ordered.trans (List.prefix_append _ _)
    · exact h.ordered
  of_ok _ ha := by cases ha
  of_toolFailure f hf htool := by
    cases hf
    obtain ⟨ht, hstop⟩ := h.of_toolFailure e rfl htool
    simp [Course.andThen, hstop, ht]
  fails_at_stop _ _ := ⟨e, rfl⟩

end Conforms

/-! ## Computations that follow a protocol -/

/-- **Following a protocol.** Under every responding runner, the calls the computation records
conform, with its result, to the outcome of the protocol given the same answers. -/
def Follows (x : ReleaseM α) (ps : Protocol) : Prop :=
  ∀ answer effect m, ∃ t,
    (x.run' (Runner.responding answer effect) m).2.calls = m.calls ++ t ∧
      Conforms (Protocol.outcome answer m.calls ps) t (x.run' (Runner.responding answer effect) m).1

/-- Every result of the computation, under every runner, satisfies `P`. -/
def Returns (x : ReleaseM α) (P : α → Prop) : Prop :=
  ∀ r m a, (x.run' r m).1 = .ok a → P a

namespace Returns

open ReleaseM

theorem pure (a : α) : Returns (Pure.pure a : ReleaseM α) (· = a) := by
  intro r m b h
  simp only [run'_pure, Except.ok.injEq] at h
  exact h.symm

theorem fail (e : Failure) (P : α → Prop) : Returns (ReleaseM.fail e : ReleaseM α) P := by
  intro r m b h
  cases h

theorem bind {x : ReleaseM α} {f : α → ReleaseM β} {P : β → Prop} (hf : ∀ a, Returns (f a) P) :
    Returns (x >>= f) P := by
  intro r m b h
  rw [run'_bind] at h
  rcases hx : x.run' r m with ⟨_ | a, m'⟩
  · rw [hx] at h
    cases h
  · rw [hx] at h
    exact hf a r m' b h

end Returns

namespace Follows

open ReleaseM

/-- A quiet computation follows the empty protocol. -/
theorem of_quiet {x : ReleaseM α} (h : Quiet x) : Follows x [] := by
  intro answer effect m
  refine ⟨[], by simp [h.silent _ m], Conforms.quiet fun f hf => ?_⟩
  exact Failure.isToolFailure_of_isFileFailure (h.failsOnly _ m f hf)

/-- **Sequencing.** A computation whose results satisfy `P`, followed by continuations that follow
`qs` on such results, follows the concatenated protocol. -/
theorem bind_of_returns {x : ReleaseM α} {f : α → ReleaseM β} {ps qs : Protocol} {P : α → Prop}
    (hx : Follows x ps) (hret : Returns x P) (hf : ∀ a, P a → Follows (f a) qs) :
    Follows (x >>= f) (ps ++ qs) := by
  intro answer effect m
  obtain ⟨t₁, hcalls₁, hc₁⟩ := hx answer effect m
  rw [run'_bind, Protocol.outcome_append]
  rcases h : x.run' (Runner.responding answer effect) m with ⟨_ | a, m₁⟩
  · rw [h] at hcalls₁ hc₁
    exact ⟨t₁, hcalls₁, hc₁.andThen answer m.calls qs⟩
  · rw [h] at hcalls₁ hc₁
    -- the first part got through: its calls are the whole outcome, and the rest runs after them
    obtain ⟨rfl, hcomplete⟩ := hc₁.of_ok a rfl
    obtain ⟨t₂, hcalls₂, hc₂⟩ := hf a (hret _ m a (by rw [h])) answer effect m₁
    rw [hcalls₁] at hcalls₂ hc₂
    refine ⟨(Protocol.outcome answer m.calls ps).calls ++ t₂, ?_, ?_⟩
    · simpa using hcalls₂
    · simpa [Course.andThen, hcomplete] using hc₂.append (o := Protocol.outcome answer m.calls ps)

theorem bind {x : ReleaseM α} {f : α → ReleaseM β} {ps qs : Protocol}
    (hx : Follows x ps) (hf : ∀ a, Follows (f a) qs) : Follows (x >>= f) (ps ++ qs) :=
  bind_of_returns (P := fun _ => True) hx (fun _ _ _ _ => trivial) fun a _ => hf a

theorem quiet_bind {x : ReleaseM α} {f : α → ReleaseM β} {qs : Protocol}
    (hx : Quiet x) (hf : ∀ a, Follows (f a) qs) : Follows (x >>= f) qs :=
  (of_quiet hx).bind hf

theorem bind_quiet {x : ReleaseM α} {f : α → ReleaseM β} {ps : Protocol}
    (hx : Follows x ps) (hf : ∀ a, Quiet (f a)) : Follows (x >>= f) ps := by
  simpa using hx.bind fun a => of_quiet (hf a)

/-- Running each member of a list in turn follows the protocols of the members in turn. -/
theorem forM {l : List γ} {f : γ → ReleaseM PUnit} {ps : γ → Protocol}
    (h : ∀ c ∈ l, Follows (f c) (ps c)) : Follows (l.forM f) (l.flatMap ps) := by
  induction l with
  | nil => exact of_quiet (Quiet.pure _)
  | cons c l ih =>
    rw [List.forM_eq_forM, List.forM_cons, List.flatMap_cons]
    exact (h c (by simp)).bind fun _ => ih fun c' hc' => h c' (by simp [hc'])

/-- A computation that fails before any call, for a reason that is not a tool's, follows every
protocol. -/
theorem fail_bind {e : Failure} (h : e.isToolFailure = false) (f : α → ReleaseM β) (ps : Protocol) :
    Follows (ReleaseM.fail e >>= f) ps := by
  intro answer effect m
  exact ⟨[], by simp [run'_bind], by simpa [run'_bind] using Conforms.aborted h⟩

/-- A step that cannot be taken follows the protocol that halts there. -/
theorem halt (e : Failure) : Follows (ReleaseM.fail e : ReleaseM α) [.halt] := by
  intro answer effect m
  refine ⟨[], by simp, ?_⟩
  simpa [Protocol.outcome_singleton, Phase.outcome] using
    Conforms.stopped (α := α) (o := ⟨[], false⟩) rfl e

/-- **A checked call.** Running a tool that must succeed follows the protocol of its one call. -/
theorem runChecked (tool : String) (cmd : Invocation) :
    Follows (ReleaseM.runChecked tool cmd) [.checked ⟨cmd.display, cmd.cwd⟩] := by
  intro answer effect m
  refine ⟨[⟨cmd.display, cmd.cwd⟩], by simp [run'_runChecked], ?_⟩
  rw [Protocol.outcome_singleton, Phase.outcome]
  -- the answer decides both the protocol's step and the run's result
  rcases hans : answer m.calls ⟨cmd.display, cmd.cwd⟩ with e | s
  · simpa [run'_runChecked, hans, Answer.succeeded] using
      Conforms.stopped (α := PUnit) (o := ⟨[⟨cmd.display, cmd.cwd⟩], false⟩) rfl _
  · have hcode : Answer.succeeded (.ok s) = s.success := rfl
    cases hs : s.success
    · simpa [run'_runChecked, hans, hcode, hs] using
        Conforms.stopped (α := PUnit) (o := ⟨[⟨cmd.display, cmd.cwd⟩], false⟩) rfl _
    · simpa [run'_runChecked, hans, hcode, hs] using
        Conforms.completed (o := ⟨[⟨cmd.display, cmd.cwd⟩], true⟩) rfl PUnit.unit

end Follows

end ReleaseBuild
