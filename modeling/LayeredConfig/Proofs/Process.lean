import LayeredConfig.Proofs.Replay
import LayeredConfig.Session

/-! Processing a session again. A run of `process` may leave new secret files
behind, and a later run reads them: a secret-file leaf finds its file made and
reads it back, a file leaf reads what the first run wrote. Every leaf of the
second run, on the files and environment the first ended with, still resolves
as it did the first time, whatever bytes the random source gives, so the two
runs agree, on success and on failure. -/

namespace LayeredConfig

namespace Session

open Machine Resolver

/-- A run of processing is the first pass over the merged tree, followed by
the copying of the noted references when the pass succeeded. -/
theorem process_run (sess : Session) {w w' : Machine} {walked : Value} {failure : Option ConfigError}
    {noted : List Deferred}
    (hrun : Value.runAt (Value.walk sess.resolver.visitLeaf sess.data) [] w = (((walked, failure), noted), w')) :
    (sess.process : StateM Machine _).run w =
      (match failure with
        | some e => .error e
        | none => .ok (walked.fillDeferred noted), w') := by
  rw [process, StateT.run_bind, resolveTree_run sess.resolver hrun]
  cases failure <;> rfl

/-- Processing a session again, on the files and environment the first run
ended with and with any random source, gives the same result: the same tree,
or the same failure. -/
theorem process_rerun_same_result (sess : Session) (w : Machine) (rnd : RandomSource) :
    ((sess.process : StateM Machine _).run { ((sess.process : StateM Machine _).run w).2 with random := rnd }).1 =
      ((sess.process : StateM Machine _).run w).1 := by
  rcases hx : Value.runAt (Value.walk sess.resolver.visitLeaf sess.data) [] w with
    ⟨⟨⟨walked, failure⟩, noted⟩, W⟩
  have hreplay := visitLeaf_replays_same sess.resolver W
  obtain ⟨-, hsucc, hfail⟩ :=
    Value.walk_replay Steps.refl Steps.trans (visitLeaf_steps sess.resolver) hreplay.1 sess.data hx
  -- the second run starts where the first ended, but for the random source
  have hmatch : ({ W with random := rnd } : Machine).store = W.store ∧
      ({ W with random := rnd } : Machine).env = W.env := ⟨rfl, rfl⟩
  rw [process_run sess hx]
  cases failure with
  | none =>
    obtain ⟨u, hrun, -⟩ := hsucc rfl (Steps.refl W) _ hmatch
    rw [process_run sess hrun]
  | some e =>
    obtain ⟨u, hrun⟩ := hfail hreplay.2 ⟨e, rfl⟩ rfl _ hmatch
    rw [process_run sess hrun]

end Session

end LayeredConfig
