import Arinc615a.Reasoning.Reactive

/-!
# Callbacks that call out

A component is driven by callbacks, and its callbacks call the user.  The user may call the
component from inside such a call, and what the callback does behind it comes after that.  So a
callback is cut at its calls into parts, and what is left of it is kept on a stack while a call
lasts.
-/

namespace Reasoning

variable {σ τ ε φ χ ω ω' : Type}

/-- A callback up to a call, or up to its end. -/
structure CallPart (σ φ ω : Type) where
  state : σ
  out : List ω
  /-- What is left of the callback behind the call. -/
  rest : Option φ := none

/-- A component whose callbacks are cut at their calls. -/
structure Calls (σ ε φ χ ω : Type) where
  /-- The first part of what an event runs. -/
  enter : σ → ε → Option (CallPart σ φ ω)
  /-- The next part of a callback, when its call is left by an exit. -/
  leave : σ → φ → χ → CallPart σ φ ω
  /-- Whether the event is a call by the user, who makes them from inside a call as well. -/
  nested : ε → Bool

/-- A component, with the rests of the callbacks whose calls last. -/
structure Suspended (σ φ : Type) where
  state : σ
  rests : List φ := []
  deriving DecidableEq

inductive CallEvent (ε χ : Type) where
  | event (e : ε)
  | leave (exit : χ)
  deriving DecidableEq

/-- What a part leaves behind on top of the stack. -/
def CallPart.suspend (part : CallPart σ φ ω) (rests : List φ) : Suspended σ φ × List ω :=
  ({ state := part.state, rests := part.rest.toList ++ rests }, part.out)

namespace Calls

variable (c : Calls σ ε φ χ ω)

def step (s : Suspended σ φ) : CallEvent ε χ → Option (Suspended σ φ × List ω)
  | .event e =>
    -- the next callback runs when the last one has come to its end
    if s.rests.isEmpty || c.nested e then (c.enter s.state e).map (·.suspend s.rests) else none
  | .leave exit =>
    match s.rests with
    | [] => none
    | rest :: rests => some ((c.leave s.state rest exit).suspend rests)

def system : Reactive (Suspended σ φ) (CallEvent ε χ) ω := ⟨c.step⟩

/-- The part that a step runs, and the stack below it. -/
inductive Runs (s : Suspended σ φ) : CallEvent ε χ → CallPart σ φ ω → List φ → Prop where
  | event (e : ε) (part : CallPart σ φ ω) (henter : c.enter s.state e = some part)
      (hfree : s.rests = [] ∨ c.nested e = true) : Runs s (.event e) part s.rests
  | leave (exit : χ) (rest : φ) (rests : List φ) (hrests : s.rests = rest :: rests) :
      Runs s (.leave exit) (c.leave s.state rest exit) rests

variable {c} {s s' : Suspended σ φ} {event : CallEvent ε χ} {out : List ω}

theorem step_cases (h : c.step s event = some (s', out)) :
    ∃ part rests, c.Runs s event part rests ∧ part.suspend rests = (s', out) := by
  cases event with
  | event e =>
    obtain ⟨hfree, henter⟩ := Option.ite_none_right_eq_some.mp h
    obtain ⟨part, hpart, hsuspend⟩ := Option.map_eq_some_iff.mp henter
    refine ⟨part, s.rests, .event e part hpart ?_, hsuspend⟩
    simpa using hfree
  | leave exit =>
    simp only [step] at h
    split at h
    · cases h
    case h_2 rest rests hrests =>
      exact ⟨_, rests, .leave exit rest rests hrests, Option.some.inj h⟩

theorem Runs.step_eq {part : CallPart σ φ ω} {rests : List φ} (h : c.Runs s event part rests) :
    c.step s event = some (part.suspend rests) := by
  cases h with
  | event e part henter hfree =>
    simp only [step]
    rw [if_pos (by simpa using hfree), henter, Option.map_some]
  | leave exit rest rests hrests => simp only [step, hrests]

/-- What every part preserves of the component holds after every run. -/
theorem run_invariant (Inv : σ → Prop)
    (henter : ∀ s e part, Inv s → c.enter s e = some part → Inv part.state)
    (hleave : ∀ s rest exit, Inv s → Inv (c.leave s rest exit).state)
    {es : List (CallEvent ε χ)} (h0 : Inv s.state) (hrun : c.system.run s es = some (s', out)) :
    Inv s'.state := by
  refine c.system.run_invariant (fun s e s' out (hs : Inv s.state) hstep => ?_) h0 hrun
  obtain ⟨part, rests, hruns, hsuspend⟩ := step_cases hstep
  cases hsuspend
  cases hruns with
  | event e part hpart => exact henter s.state e part hs hpart
  | leave exit rest => exact hleave s.state rest exit hs

end Calls

/-! ## Calls that come back at once -/

/-- What a callback comes to when nothing happens inside its calls. -/
inductive Settles (back : σ → φ → CallPart σ φ ω) : CallPart σ φ ω → σ → List ω → Prop where
  | done (s : σ) (out : List ω) : Settles back { state := s, out } s out
  | rest {s s' : σ} {rest : φ} {out out' : List ω} (h : Settles back (back s rest) s' out') :
      Settles back { state := s, out, rest := some rest } s' (out ++ out')

namespace Settles

variable {back : σ → φ → CallPart σ φ ω} {part : CallPart σ φ ω} {s s' : σ} {out : List ω}

/-- The outputs in front of a part. -/
theorem prepend (h : Settles back part s out) (pre : List ω) :
    Settles back { part with out := pre ++ part.out } s (pre ++ out) := by
  cases h with
  | done => exact .done _ _
  | rest h =>
    rw [← List.append_assoc]
    exact .rest h

/-- The same callback seen from outside, where outputs are performed. -/
theorem map {back' : τ → φ → CallPart τ φ ω'} (perform : σ → List ω → τ → τ)
    (view : List ω → List ω') (happend : ∀ out out', view (out ++ out') = view out ++ view out')
    (hback : ∀ s rest out t, back' (perform s out t) rest =
      { state := perform (back s rest).state (back s rest).out (perform s out t)
        out := view (back s rest).out, rest := (back s rest).rest })
    (hperform : ∀ s s' out out' t,
      perform s' out' (perform s out t) = perform s' (out ++ out') t)
    (h : Settles back part s out) (t : τ) :
    Settles back'
      { state := perform part.state part.out t, out := view part.out, rest := part.rest }
      (perform s out t) (view out) := by
  induction h generalizing t with
  | done s out => exact .done _ _
  | @rest s s' rest out out' h ih =>
    rw [happend, ← hperform s]
    refine .rest ?_
    rw [hback]
    exact ih _

end Settles

namespace Calls

variable {c : Calls σ ε φ χ ω} {exit : χ} {s s' : σ} {out : List ω}

/-- The calls of a callback come back one after the other. -/
theorem run_of_settles {part : CallPart σ φ ω}
    (h : Settles (fun s rest => c.leave s rest exit) part s' out) (rests : List φ) :
    ∃ n out', c.system.run { state := part.state, rests := part.rest.toList ++ rests }
        (List.replicate n (.leave exit)) = some ({ state := s', rests }, out') ∧
      out = part.out ++ out' := by
  induction h with
  | done s out => exact ⟨0, [], rfl, (List.append_nil out).symm⟩
  | @rest s s' rest out out' h ih =>
    obtain ⟨n, out'', hrun, rfl⟩ := ih
    have hstep : c.system.step { state := s, rests := rest :: rests } (.leave exit) =
        some ((c.leave s rest exit).suspend rests) := rfl
    refine ⟨n + 1, _, ?_, rfl⟩
    exact c.system.run_cons_of_step hstep hrun

/-- If the callbacks of a system are those of the component, its runs are the runs of the component
in which every call comes back at once. -/
theorem exists_run {sys : Reactive σ ε ω}
    (hsettles : ∀ s e s' out, sys.step s e = some (s', out) →
      ∃ part, c.enter s e = some part ∧
        Settles (fun s rest => c.leave s rest exit) part s' out)
    {es : List ε} (hrun : sys.run s es = some (s', out)) :
    ∃ returns : List Nat, returns.length = es.length ∧
      c.system.run { state := s }
        ((es.zip returns).flatMap fun (e, n) => .event e :: List.replicate n (.leave exit)) =
      some ({ state := s' }, out) := by
  induction es generalizing s out with
  | nil =>
    cases hrun
    exact ⟨[], rfl, rfl⟩
  | cons e es ih =>
    obtain ⟨s₁, out₁, out₂, hstep, hrest, rfl⟩ := sys.run_cons hrun
    obtain ⟨part, henter, hpart⟩ := hsettles s e s₁ out₁ hstep
    obtain ⟨n, out', hback, rfl⟩ := run_of_settles hpart []
    obtain ⟨returns, hlength, hagain⟩ := ih hrest
    have hruns : c.Runs { state := s } (.event e) part [] := .event e part henter (.inl rfl)
    have hfirst : c.system.step { state := s } (.event e) = some (part.suspend []) := hruns.step_eq
    refine ⟨n :: returns, by simp [hlength], ?_⟩
    rw [List.zip_cons_cons, List.flatMap_cons]
    exact c.system.run_append (c.system.run_cons_of_step hfirst hback) hagain

end Calls

end Reasoning
