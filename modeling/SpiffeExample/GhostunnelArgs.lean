import SpiffeExample.SingleChild
import SpiffeExample.Splitting

namespace SpiffeExample
set_option autoImplicit true

theorem toList_split (s : String) (sep : Char) :
    (split s sep).map String.toList = s.toList.splitOn sep := by
  rw [split, List.map_map]
  exact List.map_id'' (fun _ => String.toList_ofList) _

theorem intercalate_split (s : String) : " ".intercalate (split s ' ') = s := by
  apply String.toList_injective
  rw [String.toList_intercalate, toList_split]
  exact List.intercalate_splitOn ' '

theorem split_intercalate_iff {ws : List String} :
    split (" ".intercalate ws) ' ' = ws ↔ ws ≠ [] ∧ ∀ w ∈ ws, ' ' ∉ w.toList := by
  rw [← List.map_inj_right (fun _ _ => String.toList_injective), toList_split,
    String.toList_intercalate]
  refine Splitting.splitOn_intercalate_iff.trans ?_
  rw [Ne, List.map_eq_nil_iff, List.forall_mem_map]

namespace Sidecar

/-- The words that are configured for Ghostunnel and then the two paths, each an argument. -/
structure Exact (ws : List String) (pk crt : String) (c : Command) : Prop where
  args : c.args = ws ++ ["--keystore", pk, "--cacert", crt]
  nonempty : "" ∉ c.args

theorem exact_iff_args (hw : ∀ w ∈ ws, w ≠ "" ∧ ' ' ∉ w.toList) :
    Exact ws (pkFilename certDir i) (certFilename certDir i) c ↔
      c.args = ws ++ ["--keystore", pkFilename certDir i, "--cacert", certFilename certDir i] := by
  apply Iff.intro
  · intro h
    exact h.args
  · intro h
    refine ⟨h, ?_⟩
    rw [h]
    have hk : ".key" ≠ "" := by decide
    have hc : ".cert" ≠ "" := by decide
    intro hm
    rcases List.mem_append.1 hm with hm | hm
    · exact (hw "" hm).1 rfl
    · simp only [List.mem_cons, List.not_mem_nil, or_false] at hm
      rcases hm with hm | hm | hm | hm
      · exact absurd hm (by decide)
      · exact hk (String.append_eq_empty_iff.1 hm.symm).2
      · exact absurd hm (by decide)
      · exact hc (String.append_eq_empty_iff.1 hm.symm).2

theorem command_args (config : SidecarConfig) (pk crt : String) :
    (command config pk crt).args =
      split (" ".intercalate [config.ghostunnelArgs, "--keystore", pk, "--cacert", crt]) ' ' := by
  have hk : " --keystore " = " " ++ ("--keystore" ++ " ") := rfl
  have hc : " --cacert " = " " ++ ("--cacert" ++ " ") := rfl
  simp only [command, hk, hc, String.intercalate_cons_cons, String.intercalate_singleton,
    String.append_assoc]

theorem command_words (config : SidecarConfig) (pk crt : String)
    (ha : config.ghostunnelArgs = " ".intercalate ws) (hn : ws ≠ []) :
    (command config pk crt).args =
      split (" ".intercalate (ws ++ ["--keystore", pk, "--cacert", crt])) ' ' := by
  rw [command_args, ha, String.intercalate_append_of_ne_nil hn (List.cons_ne_nil _ _),
    String.intercalate_cons_of_ne_nil (List.cons_ne_nil _ _)]

/-- Without a word the text starts with the separator. -/
theorem command_no_words (config : SidecarConfig) (pk crt : String)
    (ha : config.ghostunnelArgs = "") :
    (command config pk crt).args ≠ ["--keystore", pk, "--cacert", crt] := by
  have he : "".toList.head? = none := rfl
  have hs : " ".toList.head? = some ' ' := rfl
  have hk : "--keystore".toList.head? = some '-' := rfl
  intro h
  have ht := congrArg (fun args => (" ".intercalate args).toList.head?) h
  rw [command_args, ha] at ht
  simp only [intercalate_split, String.intercalate_cons_cons, String.append_assoc,
    String.toList_append, List.head?_append, he, hs, hk, Option.none_or, Option.some_or] at ht
  exact absurd (Option.some.inj ht) (by decide)

theorem space_not_mem_path (h : ' ' ∉ extension.toList) :
    ' ' ∉ (certDir ++ "/" ++ (0 : Nat).repr ++ extension).toList ↔ ' ' ∉ certDir.toList := by
  have hs : ' ' ∉ ("/" ++ (0 : Nat).repr).toList := by decide
  simp only [String.toList_append, List.mem_append, not_or] at hs ⊢
  apply Iff.intro
  · intro hp
    exact hp.1.1.1
  · intro hd
    exact ⟨⟨⟨hd, hs.1⟩, hs.2⟩, h⟩

theorem space_not_mem_pkFilename :
    ' ' ∉ (pkFilename certDir 0).toList ↔ ' ' ∉ certDir.toList :=
  space_not_mem_path (by decide)

theorem space_not_mem_certFilename :
    ' ' ∉ (certFilename certDir 0).toList ↔ ' ' ∉ certDir.toList :=
  space_not_mem_path (by decide)

theorem exact_command {config : SidecarConfig} (hw : ∀ w ∈ ws, w ≠ "" ∧ ' ' ∉ w.toList)
    (ha : config.ghostunnelArgs = " ".intercalate ws) :
    Exact ws (pkFilename config.certDir 0) (certFilename config.certDir 0)
        (command config (pkFilename config.certDir 0) (certFilename config.certDir 0)) ↔
      ws ≠ [] ∧ ' ' ∉ config.certDir.toList := by
  rw [exact_iff_args hw]
  by_cases hn : ws = []
  · subst hn
    exact iff_of_false (command_no_words config _ _ ha) (fun h => h.1 rfl)
  · have hk : ' ' ∉ "--keystore".toList := by decide
    have hc : ' ' ∉ "--cacert".toList := by decide
    rw [command_words config _ _ ha hn, split_intercalate_iff]
    simp only [List.forall_mem_append, List.forall_mem_cons, space_not_mem_pkFilename,
      space_not_mem_certFilename]
    apply Iff.intro
    · intro h
      exact ⟨hn, h.2.2.2.1⟩
    · intro h
      have hnil : ∀ w ∈ ([] : List String), ' ' ∉ w.toList :=
        fun w hm => absurd hm List.not_mem_nil
      have hws : ∀ w ∈ ws, ' ' ∉ w.toList := fun w hm => (hw w hm).2
      exact ⟨List.append_ne_nil_of_left_ne_nil hn _, hws, hk, h.2, hc, h.2, hnil⟩

theorem dumpBundles_paths (hd : (dumpBundles env certDir fetched w).1 = dump)
    (he : dump.err = none) :
    dump.pk = pkFilename certDir 0 ∧ dump.crt = certFilename certDir 0 := by
  subst hd
  cases fetched with
  | error e => cases he
  | ok response =>
    by_cases hn : response.bundles = []
    · simp only [dumpBundles, hn, List.length_nil, if_true, reduceCtorEq] at he
    · rw [(dumpBundles_ok env certDir response w hn).1]
      exact ⟨rfl, rfl⟩

end Sidecar

/-- The dump whose paths the loop has still to pass to Ghostunnel. -/
def Loop.dump : Loop → Option Sidecar.Dump
  | .signalProcess dump | .start dump => some dump
  | _ => none

namespace Daemon
open Transition

/-- The loop passes on the paths that are derived from the configuration, and every command so
far was made of them. -/
structure Derived (s : Daemon) : Prop where
  dump : ∀ dump, s.loop.dump = some dump →
    dump.pk = Sidecar.pkFilename s.config.certDir 0 ∧
    dump.crt = Sidecar.certFilename s.config.certDir 0
  started : ∀ c ∈ s.started, c = Sidecar.command s.config
    (Sidecar.pkFilename s.config.certDir 0) (Sidecar.certFilename s.config.certDir 0)

theorem Derived.step (h : Derived s) (hs : step s e = some t) : Derived t := by
  cases step_cases hs with
  | dumped hl hd he =>
    refine ⟨?_, h.started⟩
    intro dump hp
    cases hp
    exact Sidecar.dumpBundles_paths (congrArg Prod.fst hd) he
  | dumpFailed | running | startFailed | signalled | signalFailed | timer | interrupted =>
    exact ⟨fun _ hp => (nomatch hp), h.started⟩
  | notRunning hl =>
    refine ⟨?_, h.started⟩
    intro dump hp
    cases hp
    exact h.dump _ (hl ▸ rfl)
  | @started dump hl =>
    obtain ⟨hk, hc⟩ := h.dump dump (hl ▸ rfl)
    refine ⟨fun _ hp => (nomatch hp), ?_⟩
    intro c hm
    rcases List.mem_append.1 hm with hm | hm
    · exact h.started c hm
    · rw [List.mem_singleton.1 hm, hk, hc]
      rfl
  | marked | waiting | collected | finished | exit | interrupt | advance =>
    exact ⟨h.dump, h.started⟩

theorem derived_invariant : system.Invariant Derived where
  init := by
    intro s hi
    obtain ⟨_, _, hl, _, hs, _⟩ := hi
    apply Derived.mk
    · intro dump hp
      rw [hl] at hp
      cases hp
    · intro c hm
      rw [hs] at hm
      cases hm
  step := Derived.step

/-- Ghostunnel gets the configured words and the two paths exactly when there is a word and the
directory has no space in its name. -/
theorem ghostunnelArgs_exact_iff (config : SidecarConfig)
    (hw : ∀ w ∈ ws, w ≠ "" ∧ ' ' ∉ w.toList)
    (ha : config.ghostunnelArgs = " ".intercalate ws) :
    (∀ env fetched w dump w', Sidecar.dumpBundles env config.certDir fetched w = (dump, w') →
      dump.err = none →
      (Sidecar.Exact ws dump.pk dump.crt (Sidecar.command config dump.pk dump.crt) ↔
        ws ≠ [] ∧ ' ' ∉ config.certDir.toList)) ∧
    ∀ s c, system.Reachable s → s.config = config → c ∈ s.started →
      (Sidecar.Exact ws (Sidecar.pkFilename config.certDir 0)
          (Sidecar.certFilename config.certDir 0) c ↔
        ws ≠ [] ∧ ' ' ∉ config.certDir.toList) := by
  have hc := Sidecar.exact_command hw ha
  apply And.intro
  · intro env fetched w dump w' hd he
    obtain ⟨hpk, hcrt⟩ := Sidecar.dumpBundles_paths (congrArg Prod.fst hd) he
    rw [hpk, hcrt]
    exact hc
  · intro s c hr hs hm
    subst hs
    rw [(derived_invariant.reachable hr).started c hm]
    exact hc

theorem ghostunnelArgs_after_renewal :
    ∃ s c, system.Reachable s ∧ s.started = [c] ∧
      Sidecar.Exact ["server"] (Sidecar.pkFilename "/certs" 0) (Sidecar.certFilename "/certs" 0)
        c := by
  obtain ⟨world, hr⟩ := reached_start
  have hw : ∀ w ∈ ["server"], w ≠ "" ∧ ' ' ∉ w.toList := by decide
  have hd : ' ' ∉ "/certs".toList := by decide
  have he := ((ghostunnelArgs_exact_iff sample.config hw rfl).2 _ _ hr rfl List.mem_cons_self).2
    ⟨List.cons_ne_nil _ _, hd⟩
  exact ⟨_, _, hr, rfl, he⟩

/-- Without configured words the first argument is empty, and a directory with a space in its
name is broken apart. -/
theorem ghostunnelArgs_inexact :
    ¬ Sidecar.Exact [] (Sidecar.pkFilename "/certs" 0) (Sidecar.certFilename "/certs" 0)
      (Sidecar.command ⟨"echo", "", "/certs"⟩ (Sidecar.pkFilename "/certs" 0)
        (Sidecar.certFilename "/certs" 0)) ∧
    ¬ Sidecar.Exact ["server"] (Sidecar.pkFilename "/my certs" 0)
      (Sidecar.certFilename "/my certs" 0)
      (Sidecar.command ⟨"ghostunnel", "server", "/my certs"⟩ (Sidecar.pkFilename "/my certs" 0)
        (Sidecar.certFilename "/my certs" 0)) := by
  have hw : ∀ w ∈ ["server"], w ≠ "" ∧ ' ' ∉ w.toList := by decide
  apply And.intro
  · intro h
    have hn : ∀ w ∈ ([] : List String), w ≠ "" ∧ ' ' ∉ w.toList := fun _ hm => (nomatch hm)
    exact ((@Sidecar.exact_command [] ⟨"echo", "", "/certs"⟩ hn rfl).1 h).1 rfl
  · intro h
    have hs := ((@Sidecar.exact_command _ ⟨"ghostunnel", "server", "/my certs"⟩ hw rfl).1 h).2
    exact absurd (by decide) hs

end Daemon
end SpiffeExample
