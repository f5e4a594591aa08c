import SpiffeExample.DumpEffect
import SpiffeExample.Replay

namespace SpiffeExample
set_option autoImplicit true

/-- The files after the function are those before it with the writes it logged. -/
def Go.Replays (x : Go α) : Prop :=
  ∀ w, ∃ log, (x w).2.written = w.written ++ log ∧ (x w).2.files = Replay.replay log w.files

/-- With the writes of `Yields` the files are known. -/
theorem Go.Replays.files {x : Go α} (h : x.Replays) (hy : x.Yields r log) (w : World) :
    (x w).2.files = Replay.replay log w.files := by
  obtain ⟨log', hw, hs⟩ := h w
  have he := List.append_cancel_left (hw.symm.trans (hy.written w))
  rw [hs, he]

namespace Sidecar

theorem kept_replays : Kept fun w w' =>
    ∃ log, w'.written = w.written ++ log ∧ w'.files = Replay.replay log w.files where
  refl w := ⟨[], (List.append_nil w.written).symm, rfl⟩
  trans := by
    intro u v w h h'
    obtain ⟨log, hw, hs⟩ := h
    obtain ⟨log', hw', hs'⟩ := h'
    refine ⟨log ++ log', ?_, ?_⟩
    · rw [hw', hw, List.append_assoc]
    · rw [hs', hs, Replay.replay_append]
  convertToPem env format input w := by
    obtain ⟨hf, hw⟩ := convertToPem_kept env format input w
    exact ⟨[], hw.trans (List.append_nil w.written).symm, hf⟩
  write w filename data := ⟨[(filename, data)], rfl, rfl⟩

theorem dumpFrom_replays (env : Environment) (certDir : String) (index : Nat)
    (bundles : List WorkloadEntry) : (dumpFrom env certDir index bundles).Replays :=
  kept_replays.dumpFrom env certDir index bundles

theorem dumpBundles_files (env : Environment) (certDir : String) (response : Bundles)
    (w : World) :
    (dumpBundles env certDir (.ok response) w).2.files =
      Replay.replay (writesFrom env certDir 0 response.bundles) w.files := by
  rw [dumpBundles_snd]
  exact (dumpFrom_replays env certDir 0 response.bundles).files
    (dumpFrom_yields env certDir 0 response.bundles) w

end Sidecar
end SpiffeExample
