import HikaruOpenLive.Engine.Preview
import HikaruOpenLive.Foundations.Runs
import HikaruOpenLive.Gui.WavDecode

/-! # Previews and their decode threads

A `PreviewSample` stops the player and starts a thread that decodes the file; the thread plays it when
it is done. The player counts its starts (`generation`), but no thread looks at the count, so a thread
that takes long plays over whatever was asked for in between.

As history, the preview commands are numbered: a thread remembers the one it is for, and the session the
one whose file is in the player. What a thread will decode is settled when it is started, and it may end
at any time.
-/
set_option autoImplicit false

namespace HikaruOpenLive.Gui

open Engine Foundations.Runs

structure PreviewPlayer where
  shared : PreviewBuffer
  generation : ℕ
  volume : ℚ

namespace PreviewPlayer

def new : PreviewPlayer :=
  { shared := .new, generation := 0, volume := 4 / 5 }

def setVolume (p : PreviewPlayer) (vol : ℚ) : PreviewPlayer :=
  let volume := max 0 (min vol 1)
  { p with volume := volume, shared := { p.shared with volume := volume } }

def play (p : PreviewPlayer) (samples : List ℚ) (channels : ℕ) : PreviewPlayer :=
  let generation := (p.generation + 1) % 2 ^ 64
  { p with generation := generation, shared := p.shared.start samples channels generation }

def stop (p : PreviewPlayer) : PreviewPlayer :=
  { p with shared := p.shared.stop }

end PreviewPlayer

structure DecodeThread where
  request : ℕ
  decoded : Option WavData

structure PreviewSession where
  player : PreviewPlayer
  threads : List DecodeThread
  commands : ℕ
  playing : ℕ

inductive PreviewAct where
  | previewSample (path : String) (volume speed : ℚ) (files : Files)
  | stopPreview
  | setPreviewVolume (vol : ℚ)
  | finish (i : ℕ)
  | audio (n : ℕ)

namespace PreviewSession

def new : PreviewSession :=
  { player := .new, threads := [], commands := 0, playing := 0 }

/-- The `i`-th thread in flight ends. -/
def finish (sr : ℚ) (s : PreviewSession) (i : ℕ) : PreviewSession :=
  match s.threads[i]? with
  | none => s
  | some thread =>
    match thread.decoded with
    | none => { s with threads := s.threads.eraseIdx i }
    | some data =>
      { s with
        threads := s.threads.eraseIdx i
        player := s.player.play (data.atRate sr) data.channels
        playing := thread.request }

def step (sr : ℚ) (s : PreviewSession) : PreviewAct → PreviewSession
  | .previewSample path volume _ files =>
    { s with
      player := s.player.stop.setVolume volume
      threads := s.threads ++ [⟨s.commands + 1, files path⟩]
      commands := s.commands + 1 }
  | .stopPreview => { s with player := s.player.stop, commands := s.commands + 1 }
  | .setPreviewVolume vol => { s with player := s.player.setVolume vol }
  | .finish i => s.finish sr i
  | .audio n => { s with player := { s.player with shared := (s.player.shared.process n).2 } }

/-- Whatever is playing was asked for by the latest preview command. -/
def PlaysLatest (s : PreviewSession) : Prop :=
  s.player.shared.isPlaying = true → s.playing = s.commands

/-- A thread that will play what an earlier command asked for. -/
def Stale (s : PreviewSession) : Prop :=
  ∃ thread ∈ s.threads, thread.decoded.isSome = true ∧ thread.request < s.commands

/-- The condition: a preview command is processed when no thread is still decoding a readable file. -/
def Settled (s : PreviewSession) : PreviewAct → Prop
  | .previewSample .. => ∀ thread ∈ s.threads, thread.decoded = none
  | .stopPreview => ∀ thread ∈ s.threads, thread.decoded = none
  | _ => True

def IsFinish : PreviewAct → Prop
  | .finish _ => True
  | _ => False

/-! ## One step -/

structure Numbered (s : PreviewSession) : Prop where
  threads : ∀ thread ∈ s.threads, thread.request ≤ s.commands

theorem numbered_new : new.Numbered :=
  ⟨by simp [new]⟩

/-- A thread that ends: it was in flight, and its file plays if it could be read. -/
theorem finish_cases (sr : ℚ) (s : PreviewSession) (i : ℕ) :
    s.finish sr i = s ∨ ∃ thread, s.threads[i]? = some thread ∧
      (s.finish sr i).threads = s.threads.eraseIdx i ∧ (s.finish sr i).commands = s.commands ∧
      ((thread.decoded = none ∧ (s.finish sr i).player = s.player ∧
          (s.finish sr i).playing = s.playing) ∨
        (thread.decoded.isSome = true ∧ (s.finish sr i).player.shared.isPlaying = true ∧
          (s.finish sr i).playing = thread.request)) := by
  unfold finish
  cases hthread : s.threads[i]? with
  | none => exact Or.inl rfl
  | some thread =>
    cases hdecoded : thread.decoded with
    | none => exact Or.inr ⟨thread, rfl, by simp [hdecoded]⟩
    | some data =>
      refine Or.inr ⟨thread, rfl, ?_⟩
      simp [hdecoded, PreviewPlayer.play, PreviewBuffer.start]

theorem isPlaying_process (p : PreviewBuffer) (n : ℕ) (h : (p.process n).2.isPlaying = true) :
    p.isPlaying = true := by
  by_contra hidle
  rw [p.process_idle (by simpa using hidle)] at h
  exact hidle h

theorem Numbered.step {s : PreviewSession} (hs : s.Numbered) (sr : ℚ) (act : PreviewAct) :
    (s.step sr act).Numbered := by
  cases act with
  | previewSample path volume speed files =>
    refine ⟨fun thread h => ?_⟩
    obtain h | h := List.mem_append.mp h
    · exact (hs.threads thread h).trans (Nat.le_succ _)
    · rw [List.mem_singleton.mp h]
      exact le_rfl
  | stopPreview => exact ⟨fun thread h => (hs.threads thread h).trans (Nat.le_succ _)⟩
  | setPreviewVolume vol => exact ⟨hs.threads⟩
  | finish i =>
    obtain heq | ⟨thread, _, hthreads, hcommands, _⟩ := s.finish_cases sr i
    · rw [PreviewSession.step, heq]
      exact hs
    · refine ⟨fun thread' h => ?_⟩
      simp only [PreviewSession.step, hthreads, hcommands] at h ⊢
      exact hs.threads thread' (List.mem_of_mem_eraseIdx h)
  | audio n => exact ⟨hs.threads⟩

/-- As long as no command comes too early, no thread goes stale and only the latest request plays. -/
theorem playsLatest_step {s : PreviewSession} (sr : ℚ) {act : PreviewAct} (hplays : s.PlaysLatest)
    (hstale : ¬s.Stale) (hnum : s.Numbered) (hact : s.Settled act) :
    (s.step sr act).PlaysLatest ∧ ¬(s.step sr act).Stale := by
  have hfresh : ∀ thread ∈ s.threads, thread.decoded.isSome = true →
      thread.request = s.commands := by
    intro thread h hdecoded
    by_contra hne
    exact hstale ⟨thread, h, hdecoded, lt_of_le_of_ne (hnum.threads thread h) hne⟩
  cases act with
  | previewSample path volume speed files =>
    refine ⟨fun h => Bool.noConfusion h, ?_⟩
    rintro ⟨thread, h, hdecoded, hlt⟩
    obtain h | h := List.mem_append.mp h
    · rw [hact thread h] at hdecoded
      exact Bool.noConfusion hdecoded
    · rw [List.mem_singleton.mp h] at hlt
      exact lt_irrefl _ hlt
  | stopPreview =>
    refine ⟨fun h => Bool.noConfusion h, ?_⟩
    rintro ⟨thread, h, hdecoded, _⟩
    rw [hact thread h] at hdecoded
    exact Bool.noConfusion hdecoded
  | setPreviewVolume vol => exact ⟨hplays, hstale⟩
  | finish i =>
    obtain heq | ⟨thread, hthread, hthreads, hcommands, hend⟩ := s.finish_cases sr i
    · rw [PreviewSession.step, heq]
      exact ⟨hplays, hstale⟩
    · constructor
      · simp only [PreviewSession.step, PlaysLatest, hcommands]
        obtain ⟨_, hplayer, hplaying⟩ | ⟨hdecoded, _, hplaying⟩ := hend
        · rw [hplayer, hplaying]
          exact hplays
        · intro _
          rw [hplaying]
          exact hfresh thread (List.mem_of_getElem? hthread) hdecoded
      · simp only [PreviewSession.step, Stale, hthreads, hcommands]
        rintro ⟨other, h, hother⟩
        exact hstale ⟨other, List.mem_of_mem_eraseIdx h, hother⟩
  | audio n => exact ⟨fun h => hplays (isPlaying_process _ n h), hstale⟩

/-- A stale thread stays in flight until it ends, and then it plays. -/
theorem stale_step {s : PreviewSession} (sr : ℚ) (act : PreviewAct) (h : s.Stale) :
    (s.step sr act).Stale ∨ ¬(s.step sr act).PlaysLatest := by
  obtain ⟨thread, hmem, hdecoded, hlt⟩ := h
  cases act with
  | previewSample path volume speed files =>
    exact Or.inl ⟨thread, List.mem_append_left _ hmem, hdecoded, hlt.trans (Nat.lt_succ_self _)⟩
  | stopPreview => exact Or.inl ⟨thread, hmem, hdecoded, hlt.trans (Nat.lt_succ_self _)⟩
  | setPreviewVolume vol => exact Or.inl ⟨thread, hmem, hdecoded, hlt⟩
  | finish i =>
    obtain heq | ⟨ended, hended, hthreads, hcommands, hend⟩ := s.finish_cases sr i
    · rw [PreviewSession.step, heq]
      exact Or.inl ⟨thread, hmem, hdecoded, hlt⟩
    · obtain ⟨k, hk⟩ := List.mem_iff_getElem?.mp hmem
      by_cases hki : k = i
      · have hsame : thread = ended := by
          rw [hki, hended] at hk
          exact (Option.some.inj hk).symm
        subst hsame
        refine Or.inr fun hplays => ?_
        obtain ⟨hnone, _⟩ | ⟨_, hsounds, hplaying⟩ := hend
        · rw [hnone] at hdecoded
          exact Bool.noConfusion hdecoded
        · have heq := hplays hsounds
          simp only [PreviewSession.step, hcommands, hplaying] at heq
          omega
      · refine Or.inl ⟨thread, ?_, hdecoded, ?_⟩
        · simp only [PreviewSession.step, hthreads]
          exact List.mem_eraseIdx_iff_getElem?.mpr ⟨k, hki, hk⟩
        · simpa only [PreviewSession.step, hcommands] using hlt
  | audio n => exact Or.inl ⟨thread, hmem, hdecoded, hlt⟩

/-! ## Runs -/

/-- Whatever is still to come, a stale thread can end after it. -/
theorem not_always_of_stale {s : PreviewSession} (sr : ℚ) (acts : List PreviewAct) (h : s.Stale) :
    ∃ rest, (∀ act ∈ rest, IsFinish act) ∧ ¬Always (step sr) PlaysLatest s (acts ++ rest) := by
  induction acts generalizing s with
  | nil =>
    obtain ⟨thread, hmem, hdecoded, hlt⟩ := h
    obtain ⟨data, hdata⟩ := Option.isSome_iff_exists.mp hdecoded
    obtain ⟨i, hi⟩ := List.mem_iff_getElem?.mp hmem
    refine ⟨[.finish i], by simp [IsFinish], fun hrun => ?_⟩
    have hfinal : (s.finish sr i).PlaysLatest := hrun.final
    simp only [finish, hi, hdata] at hfinal
    exact absurd (hfinal rfl) hlt.ne
  | cons act acts ih =>
    obtain hstale | hplays := stale_step sr act h
    · obtain ⟨rest, hrest, hnot⟩ := ih hstale
      exact ⟨rest, hrest, fun hrun => hnot hrun.2⟩
    · exact ⟨[], by simp, fun hrun => hplays hrun.2.head⟩

theorem settled_of_isFinish {act : PreviewAct} (h : IsFinish act) (s : PreviewSession) :
    s.Settled act := by
  cases act with
  | finish i => exact trivial
  | previewSample path volume speed files => exact h.elim
  | stopPreview => exact h.elim
  | setPreviewVolume vol => exact h.elim
  | audio n => exact h.elim

/-- A command that comes too early leaves a stale thread behind. -/
theorem stale_of_not_settled {s : PreviewSession} (hnum : s.Numbered) (sr : ℚ) {act : PreviewAct}
    (h : ¬s.Settled act) : (s.step sr act).Stale := by
  cases act with
  | previewSample path volume speed files =>
    simp only [Settled, not_forall] at h
    obtain ⟨thread, hmem, hdecoded⟩ := h
    exact ⟨thread, List.mem_append_left _ hmem, Option.isSome_iff_ne_none.mpr hdecoded,
      Nat.lt_succ_of_le (hnum.threads thread hmem)⟩
  | stopPreview =>
    simp only [Settled, not_forall] at h
    obtain ⟨thread, hmem, hdecoded⟩ := h
    exact ⟨thread, hmem, Option.isSome_iff_ne_none.mpr hdecoded,
      Nat.lt_succ_of_le (hnum.threads thread hmem)⟩
  | setPreviewVolume vol => exact absurd trivial h
  | finish i => exact absurd trivial h
  | audio n => exact absurd trivial h

theorem always_of_settled {s : PreviewSession} (sr : ℚ) {acts : List PreviewAct}
    (hs : s.PlaysLatest ∧ ¬s.Stale ∧ s.Numbered) (h : Along (step sr) Settled s acts) :
    Always (step sr) PlaysLatest s acts := by
  have hkeep : ∀ (s : PreviewSession) (act : PreviewAct),
      (s.PlaysLatest ∧ ¬s.Stale ∧ s.Numbered) → s.Settled act →
      (s.step sr act).PlaysLatest ∧ ¬(s.step sr act).Stale ∧ (s.step sr act).Numbered := by
    rintro s act ⟨hplays, hstale, hnum⟩ hact
    obtain ⟨hplays', hstale'⟩ := playsLatest_step sr hplays hstale hnum hact
    exact ⟨hplays', hstale', hnum.step sr act⟩
  exact (always_of_along hkeep hs h).mono fun s hs => hs.1

theorem settled_of_always {s : PreviewSession} (sr : ℚ) {acts : List PreviewAct} (hnum : s.Numbered)
    (h : ∀ rest, (∀ act ∈ rest, IsFinish act) → Always (step sr) PlaysLatest s (acts ++ rest)) :
    Along (step sr) Settled s acts := by
  induction acts generalizing s with
  | nil => trivial
  | cons act acts ih =>
    refine ⟨?_, ih (hnum.step sr act) fun rest hrest => (h rest hrest).2⟩
    by_contra hearly
    obtain ⟨rest, hrest, hnot⟩ := not_always_of_stale sr acts (stale_of_not_settled hnum sr hearly)
    exact hnot (h rest hrest).2

/-- Nothing but the latest request ever plays, however the threads in flight end after the run, exactly
when every preview command of the run finds no readable file being decoded. -/
theorem always_playsLatest_iff (sr : ℚ) (acts : List PreviewAct) :
    (∀ rest, (∀ act ∈ rest, IsFinish act) → Always (step sr) PlaysLatest new (acts ++ rest)) ↔
      Along (step sr) Settled new acts := by
  refine ⟨settled_of_always sr numbered_new, fun h rest hrest => ?_⟩
  apply always_of_settled sr
  · exact ⟨fun h => Bool.noConfusion h, by simp [Stale, new], numbered_new⟩
  · refine along_append.mpr ⟨h, ?_⟩
    have hfinish : Along (step sr) (fun _ act => IsFinish act) (acts.foldl (step sr) new) rest :=
      along_of_forall_mem hrest
    exact hfinish.mono fun s act hact => settled_of_isFinish hact s

/-- A file that takes long to decode plays over the next one, and after a stop. -/
theorem not_always_playsLatest_slow_decode :
    ¬Always (step 48000) PlaysLatest new
        [.previewSample "long" 1 1 fun _ => some ⟨[1, 1, 1], 48000, 1⟩,
          .previewSample "short" 1 1 fun _ => some ⟨[1], 48000, 1⟩, .finish 1, .finish 0] ∧
      ¬Always (step 48000) PlaysLatest new
        [.previewSample "long" 1 1 fun _ => some ⟨[1, 1, 1], 48000, 1⟩, .stopPreview, .finish 0] :=
  ⟨fun h => absurd (h.final (by decide +kernel)) (by decide +kernel),
    fun h => absurd (h.final (by decide +kernel)) (by decide +kernel)⟩

end PreviewSession

end HikaruOpenLive.Gui
