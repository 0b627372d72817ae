import VisualNovel.Proofs.Life.Replaying
import VisualNovel.Sound.System

/-!
# Music while a history is carried out once more

A history that is carried out once more asks for every track that was ever played, and for every
stop, one after the other. A track that is asked for while it is playing goes on. So the track that
the history ends with goes on all the time only if the history has no other track and no stop;
otherwise it is stopped or replaced on the way, and started again at the end.

## Main definitions

* `Call.isMusic`, `Command.musicCalls`: what a history asks of the player of music;
* `SoundSystem.Plays`, `SoundSystem.Loads`: a track is playing, and it can be played;
* `Sounding.heed`, `Sounding.heedAll`: what the sound system makes of calls;
* `SoundNotice.interrupts`: what is asked of the device breaks into the music.

## Main results

* `Sounding.heed_music`: one call, and when it breaks into the music;
* `Sounding.heedAll_music`: calls in a row, and when they break into a track;
* `Sounding.replay_music_iff`: when a history that ends with a track lets it go on.
-/

namespace VisualNovel

/-- A call asks the player of music for something. -/
def Call.isMusic : Call → Bool
  | playMusic _ | stopMusic => true
  | _ => false

/-- What a history asks of the player of music when it is carried out once more. -/
def Command.musicCalls (lines : List String) : List Call :=
  (lines.flatMap fun line => Command.calls line true).filter Call.isMusic

/-- What the device is asked for breaks into the music: a track is stopped, loaded or started. -/
def SoundNotice.interrupts : SoundNotice → Bool
  | device .stopMusic | device (.fadeMusic _) | device (.loadMusic _) | device (.startMusic _ _) =>
    true
  | _ => false

namespace SoundSystem

/-- A track is playing, and not paused, on a device that is in operation. -/
structure Plays (s : SoundSystem) (track : String) : Prop where
  /-- The device is in operation. -/
  ready : s.device.ready = true
  /-- The device is busy with music. -/
  playing : s.device.playing = true
  /-- The music is the track. -/
  track_eq : s.player.track = track
  /-- The track is not paused. -/
  resumed : s.player.paused = false

instance (s : SoundSystem) (track : String) : Decidable (s.Plays track) :=
  decidable_of_iff (s.device.ready = true ∧ s.device.playing = true ∧ s.player.track = track ∧
    s.player.paused = false) ⟨fun ⟨h₁, h₂, h₃, h₄⟩ => ⟨h₁, h₂, h₃, h₄⟩,
      fun h => ⟨h.ready, h.playing, h.track_eq, h.resumed⟩⟩

/-- A track is found among the files, and it can be decoded. -/
def Loads (s : SoundSystem) (track : String) : Prop :=
  ∃ path, s.locate s.musicFolder track = .ok (some path) ∧
    Files.Media.isGood s.files (.ofString path.toString) = true

/-- The system after an event has been told. -/
def told (s : SoundSystem) (e : Event) : SoundSystem :=
  if s.announces then { s with notices := s.notices ++ [.event e] } else s

variable (s : SoundSystem) (e : Event)

@[simp]
theorem told_device : (s.told e).device = s.device := by unfold told; split <;> rfl

@[simp]
theorem told_player : (s.told e).player = s.player := by unfold told; split <;> rfl

@[simp]
theorem told_files : (s.told e).files = s.files := by unfold told; split <;> rfl

@[simp]
theorem told_musicFolder : (s.told e).musicFolder = s.musicFolder := by unfold told; split <;> rfl

/-- Whether events are told or not, an event does not break into the music. -/
theorem exists_told_notices : ∃ new, (s.told e).notices = s.notices ++ new ∧
    new.any SoundNotice.interrupts = false := by
  unfold told
  split
  · exact ⟨[.event e], rfl, rfl⟩
  · exact ⟨[], (List.append_nil _).symm, rfl⟩

end SoundSystem

namespace Sounding

/-- What the sound system makes of a call. -/
def heed : Call → Sounding Unit
  | .playMusic name => do let _ ← playMusic name true (.whole 0)
  | .stopMusic => stopMusic (.whole 0)
  | .playEffect name => do let _ ← playEffect name (.real 1)
  | _ => pure ()

/-- What the sound system makes of calls, one after the other. -/
def heedAll : List Call → Sounding Unit
  | [] => pure ()
  | c :: cs => do
    heed c
    heedAll cs

open SoundSystem

variable {s : SoundSystem} {track file : String} {path : Files.Path}

section Apply

variable {α β : Type} (s : SoundSystem)

theorem bind_apply (x : Sounding α) (f : α → Sounding β) : (x >>= f) s = match x s with
    | .ok a s' => f a s'
    | .error e s' => .error e s' := by
  show EStateM.bind x f s = _
  rw [EStateM.bind]
  cases x s <;> rfl

theorem get_bind_apply (f : SoundSystem → Sounding α) : (get >>= f) s = f s s := rfl

end Apply

/-- A track that is playing goes on. -/
theorem play_of_plays (h : s.Plays track) (loops fade : Quantity) :
    play track file loops fade s = .ok true s := by
  have hgoes : (track = s.player.track && !s.player.paused && s.isPlaying) = true := by
    simp [h.track_eq, h.resumed, isPlaying, h.ready, h.playing]
  rw [play, get_bind_apply, if_neg (by simp [h.ready]), if_pos hgoes]
  rfl

/-- Another track is loaded and started. -/
theorem play_of_not_plays (hready : s.device.ready = true) (h : ¬s.Plays track)
    (hgood : Files.Media.isGood s.files (.ofString file) = true) (loops fade : Quantity) :
    play track file loops fade s = .ok true { s with
      device := { s.device with playing := true }
      player := { s.player with track, file, paused := false }
      notices := s.notices ++ [.device (.loadMusic file), .device (.setMusicVolume s.player.volume),
        .device (.startMusic loops fade)] } := by
  -- the shortcut is taken for the very track that plays, and only then
  have hother : ¬(track = s.player.track && !s.player.paused && s.isPlaying) = true := by
    intro hgoes
    simp only [Bool.and_eq_true, decide_eq_true_eq, Bool.not_eq_true', isPlaying] at hgoes
    exact h ⟨hready, hgoes.2.2, hgoes.1.1.symm, hgoes.1.2⟩
  have hstarts : startFile file loops fade s = .ok true { s with
      device := { s.device with playing := true }
      notices := s.notices ++ [.device (.loadMusic file), .device (.setMusicVolume s.player.volume),
        .device (.startMusic loops fade)] } := by
    have hload : request (.loadMusic file) s =
        .ok () { s with notices := s.notices ++ [.device (.loadMusic file)] } := rfl
    have happend (a b c : SoundNotice) :
        s.notices ++ [a, b, c] = s.notices ++ [a] ++ [b] ++ [c] := by simp
    rw [startFile, bind_apply, hload]
    dsimp only
    rw [get_bind_apply, if_neg (by simp [hgood]), happend]
    rfl
  rw [play, get_bind_apply, if_neg (by simp [hready]), if_neg hother, bind_apply, hstarts]
  rfl

/-- A track that is found is played from its file, and the event is told. -/
theorem heed_playMusic {s' : SoundSystem} (hpath : s.locate s.musicFolder track = .ok (some path))
    (hplay : play track path.toString (.whole (-1)) (.whole 0) s = .ok true s') :
    heed (.playMusic track) s = .ok () (s'.told (.musicStarted track path.toString)) := by
  have hfind : find s.musicFolder track s = .ok (some path) s := by
    rw [find, get_bind_apply, hpath]
    rfl
  rw [heed, bind_apply, playMusic, get_bind_apply, bind_apply, hfind]
  dsimp only
  rw [bind_apply, if_pos rfl, hplay]
  rfl

/-- The music is stopped at once. -/
theorem heed_stopMusic (hready : s.device.ready = true) :
    heed .stopMusic s = .ok () (({ s with
      device := { s.device with playing := false }
      player := { s.player with track := "", file := "", paused := false }
      notices := s.notices ++ [.device .stopMusic] } : SoundSystem).told .musicStopped) := by
  have hstop : stop (.whole 0) s = .ok () { s with
      device := { s.device with playing := false }
      player := { s.player with track := "", file := "", paused := false }
      notices := s.notices ++ [.device .stopMusic] } := by
    have hclear : editPlayer (fun p => { p with track := "", file := "", paused := false }) s =
        .ok () { s with player := { s.player with track := "", file := "", paused := false } } :=
      rfl
    rw [stop, bind_apply, hclear]
    dsimp only
    rw [get_bind_apply, if_pos hready]
    rfl
  rw [heed, stopMusic, bind_apply, hstop]
  rfl

/-- What calls for music leave as it is. -/
structure Keeps (s s' : SoundSystem) : Prop where
  /-- The device stays in operation. -/
  ready : s'.device.ready = s.device.ready
  /-- The files are the same. -/
  files : s'.files = s.files
  /-- Music is looked for in the same folder. -/
  folder : s'.musicFolder = s.musicFolder

theorem Keeps.loads {s s' : SoundSystem} (h : Keeps s s') (hloads : s.Loads track) :
    s'.Loads track := by
  obtain ⟨path, hpath, hgood⟩ := hloads
  exact ⟨path, by rw [h.folder, locate, h.files]; exact hpath, by rw [h.files]; exact hgood⟩

/-- A call for music can be met, and a track that is asked for plays then. It breaks into the music
unless the track has been playing before. -/
theorem heed_music {c : Call} (hc : c.isMusic = true) (hready : s.device.ready = true)
    (hloads : ∀ track, c = .playMusic track → s.Loads track) :
    ∃ s' new, heed c s = .ok () s' ∧ Keeps s s' ∧ s'.notices = s.notices ++ new ∧
      (∀ track, c = .playMusic track → s'.Plays track) ∧
      (new.any SoundNotice.interrupts = false ↔ ∃ track, c = .playMusic track ∧ s.Plays track) := by
  cases c with
  | playMusic track =>
    obtain ⟨path, hpath, hgood⟩ := hloads track rfl
    -- a track that plays already is not loaded once more, so nothing breaks into the music
    by_cases hplays : s.Plays track
    · have hheed := heed_playMusic hpath (play_of_plays hplays _ _)
      obtain ⟨new, hnew, hquiet⟩ := s.exists_told_notices (.musicStarted track path.toString)
      refine ⟨_, new, hheed, ⟨by simp, by simp, by simp⟩, hnew, ?_, ?_⟩
      · rintro _ ⟨⟩
        exact ⟨by simpa using hready, by simpa using hplays.playing, by simpa using hplays.track_eq,
          by simpa using hplays.resumed⟩
      · exact iff_of_true hquiet ⟨track, rfl, hplays⟩
    · have hheed := heed_playMusic hpath (play_of_not_plays hready hplays hgood _ _)
      obtain ⟨new, hnew, -⟩ := exists_told_notices _ (.musicStarted track path.toString)
      refine ⟨_, _, hheed, ⟨by simp, by simp, by simp⟩, hnew.trans (List.append_assoc ..), ?_, ?_⟩
      · rintro _ ⟨⟩
        exact ⟨by simpa using hready, by simp, by simp, by simp⟩
      · refine iff_of_false (by simp [SoundNotice.interrupts]) ?_
        rintro ⟨_, ⟨⟩, h⟩
        exact hplays h
  | stopMusic =>
    have hheed := heed_stopMusic hready
    obtain ⟨new, hnew, -⟩ := exists_told_notices _ .musicStopped
    refine ⟨_, _, hheed, ⟨by simp, by simp, by simp⟩, hnew.trans (List.append_assoc ..), ?_, ?_⟩
    · rintro _ ⟨⟩
    · refine iff_of_false (by simp [SoundNotice.interrupts]) ?_
      rintro ⟨_, ⟨⟩, -⟩
  | _ => cases hc

/-- What calls for music in a row come to. The last one decides what plays in the end, and a track
that has been playing goes on all the time if nothing else is asked for. -/
theorem heedAll_music {cs : List Call} (hmusic : ∀ c ∈ cs, c.isMusic = true)
    (hready : s.device.ready = true) (hloads : ∀ track, .playMusic track ∈ cs → s.Loads track) :
    ∃ s' new, heedAll cs s = .ok () s' ∧ s'.notices = s.notices ++ new ∧
      (∀ track, cs.getLast? = some (.playMusic track) → s'.Plays track) ∧
      ∀ track, s.Plays track →
        (new.any SoundNotice.interrupts = false ↔ ∀ c ∈ cs, c = .playMusic track) := by
  -- on the calls, from any state: each one keeps what the next one needs to be met
  induction cs generalizing s with
  | nil => exact ⟨s, [], rfl, (List.append_nil _).symm, by simp, by simp⟩
  | cons c cs ih =>
    obtain ⟨hc, hcs⟩ := List.forall_mem_cons.mp hmusic
    obtain ⟨s₁, new₁, hheed, hkeeps, hnew₁, hplays₁, hquiet₁⟩ :=
      heed_music hc hready fun track htrack => hloads track (htrack ▸ List.mem_cons_self ..)
    obtain ⟨s', new, hrest, hnew, hplays, hquiet⟩ := ih hcs (hkeeps.ready.trans hready)
      fun track htrack => hkeeps.loads (hloads track (List.mem_cons_of_mem _ htrack))
    refine ⟨s', new₁ ++ new, ?_, by rw [hnew, hnew₁, List.append_assoc], ?_, ?_⟩
    · rw [heedAll, bind_apply, hheed]
      exact hrest
    · intro track hlast
      cases cs with
      | nil =>
        obtain ⟨-, rfl⟩ := EStateM.Result.ok.inj hrest
        exact hplays₁ track (by simpa using hlast)
      | cons d cs => exact hplays track (by simpa using hlast)
    · intro track htrack
      -- only one track can play, so the first call is for the one that has been playing
      have hsame : (∃ other, c = .playMusic other ∧ s.Plays other) ↔ c = .playMusic track := by
        constructor
        · rintro ⟨other, rfl, hother⟩
          rw [← hother.track_eq, htrack.track_eq]
        · exact fun h => ⟨track, h, htrack⟩
      rw [List.any_append, Bool.or_eq_false_iff, hquiet₁, hsame, List.forall_mem_cons]
      exact and_congr_right fun h => hquiet track (hplays₁ track h)

/-- The sound system passes over calls for others. -/
theorem heedAll_filter {cs : List Call} (h : ∀ c ∈ cs, c.isEffect = false) :
    heedAll cs = heedAll (cs.filter Call.isMusic) := by
  induction cs with
  | nil => rfl
  | cons c cs ih =>
    obtain ⟨hc, hcs⟩ := List.forall_mem_cons.mp h
    rw [heedAll, ih hcs]
    cases c with
    | playMusic name => rfl
    | stopMusic => rfl
    | playEffect name => cases hc
    | _ => rfl

variable {σ : Type} (hear : Listener σ) (goTo : String → Act σ Unit)

/-- A history is carried out once more while a track plays that it ends with, and all its tracks can
be played. Then the track plays afterwards. The device is asked for nothing that breaks into the
music on the way exactly if the history asks for no other track and for no stop. -/
theorem replay_music_iff (lines : List String) {st : Stage σ} {s : SoundSystem} {track : String}
    (hsound : .sound ∈ st.setup.helpers) (hplays : s.Plays track)
    (hloads : ∀ name, .playMusic name ∈ Command.musicCalls lines → s.Loads name)
    (hlast : (Command.musicCalls lines).getLast? = some (.playMusic track)) :
    ∃ cs remarks s' new,
      Act.replay hear goTo lines st = .ok () { st with
        notices := st.notices ++ cs.map .call
        remarks := st.remarks ++ remarks } ∧
      heedAll cs s = .ok () s' ∧ s'.Plays track ∧ s'.notices = s.notices ++ new ∧
      (new.any SoundNotice.interrupts = false ↔
        ∀ c ∈ Command.musicCalls lines, c = .playMusic track) := by
  obtain ⟨remarks, hreplay⟩ := Act.replay_apply hear goTo lines
  have hmusic : ∀ c ∈ Command.musicCalls lines, c.isMusic = true := fun c hc =>
    (List.mem_filter.mp hc).2
  obtain ⟨s', new, hheed, hnew, hplays', hquiet⟩ := heedAll_music hmusic hplays.ready hloads
  refine ⟨_, remarks, s', new, hreplay st, ?_, hplays' track hlast, hnew, hquiet track hplays⟩
  -- effects are left out of a history that is carried out once more
  have heffect : ∀ c ∈ Call.heeded st.setup.helpers
      (lines.flatMap fun line => Command.calls line true), c.isEffect = false := by
    intro c hc
    obtain ⟨line, -, hline⟩ := List.mem_flatMap.mp (List.mem_filter.mp hc).1
    rw [Command.calls_replay, List.mem_filter] at hline
    simpa using hline.2
  have hcalls : (Call.heeded st.setup.helpers
      (lines.flatMap fun line => Command.calls line true)).filter Call.isMusic =
      Command.musicCalls lines := by
    rw [Call.heeded, List.filter_filter]
    refine List.filter_congr fun c _ => ?_
    cases c <;> simp [Call.isMusic, Call.helper, hsound]
  rw [heedAll_filter heffect, hcalls, hheed]

/-- Two tracks, the second of which is playing. -/
private def jukebox : SoundSystem where
  device := { playing := true }
  player := { track := "waltz", file := "bgm/waltz.ogg" }
  musicFolder := ⟨.working, ["bgm"]⟩
  effectFolder := ⟨.working, ["sfx"]⟩
  files := ⟨[(["bgm"], .folder), (["bgm", "march.wav"], .file .empty),
    (["bgm", "waltz.ogg"], .file .empty)]⟩

private theorem jukebox_plays : jukebox.Plays "waltz" := ⟨rfl, rfl, rfl, rfl⟩

private theorem jukebox_loads : jukebox.Loads "march" ∧ jukebox.Loads "waltz" :=
  ⟨⟨⟨.working, ["bgm", "march.wav"]⟩, rfl, by decide +kernel⟩,
    ⟨⟨.working, ["bgm", "waltz.ogg"]⟩, rfl, by decide +kernel⟩⟩

/-- A stage with music only. -/
private def ballroom : Stage Unit :=
  { (default : Stage Unit) with setup := { (default : Setup) with helpers := [.sound] } }

/-- The same track is asked for twice, among other commands. -/
theorem replay_music_waltz :
    let lines := ["[Music=waltz]", "[ShowPlayer]", "[Sfx=bell]", "[Music= waltz ]", "[Music=]"]
    (.sound ∈ ballroom.setup.helpers ∧ jukebox.Plays "waltz" ∧
        (∀ name, .playMusic name ∈ Command.musicCalls lines → jukebox.Loads name) ∧
        (Command.musicCalls lines).getLast? = some (.playMusic "waltz")) ∧
      ∃ cs remarks s' new,
        Act.replay (fun _ => pure ()) (fun _ => pure ()) lines ballroom = .ok () { ballroom with
          notices := ballroom.notices ++ cs.map .call
          remarks := ballroom.remarks ++ remarks } ∧
        heedAll cs jukebox = .ok () s' ∧ s'.Plays "waltz" ∧ s'.notices = jukebox.notices ++ new ∧
        new.any SoundNotice.interrupts = false := by
  intro lines
  have hcalls : Command.musicCalls lines = [.playMusic "waltz", .playMusic "waltz"] := by
    decide +kernel
  have hsound : .sound ∈ ballroom.setup.helpers := List.mem_singleton_self _
  have hloads : ∀ name, .playMusic name ∈ Command.musicCalls lines → jukebox.Loads name := by
    rintro name hname
    obtain rfl : name = "waltz" := by simpa [hcalls] using hname
    exact jukebox_loads.2
  have hlast : (Command.musicCalls lines).getLast? = some (.playMusic "waltz") := by
    rw [hcalls]
    rfl
  obtain ⟨cs, remarks, s', new, hreplay, hheed, hplays, hnew, hquiet⟩ :=
    replay_music_iff (fun _ => pure ()) (fun _ => pure ()) lines hsound jukebox_plays hloads hlast
  exact ⟨⟨hsound, jukebox_plays, hloads, hlast⟩, cs, remarks, s', new, hreplay, hheed, hplays, hnew,
    hquiet.mpr (by simp [hcalls])⟩

/-- A track that came before the one that is playing takes its place for a moment, and the one that
was playing is started again. -/
theorem replay_restarts_music :
    let lines := ["[Music=march]", "[Music=waltz]"]
    let cs : List Call := [.playMusic "march", .playMusic "waltz"]
    let new : List SoundNotice := [
      .device (.loadMusic "bgm/march.wav"), .device (.setMusicVolume 1),
      .device (.startMusic (.whole (-1)) (.whole 0)),
      .event (.musicStarted "march" "bgm/march.wav"),
      .device (.loadMusic "bgm/waltz.ogg"), .device (.setMusicVolume 1),
      .device (.startMusic (.whole (-1)) (.whole 0)),
      .event (.musicStarted "waltz" "bgm/waltz.ogg")]
    (.sound ∈ ballroom.setup.helpers ∧ jukebox.Plays "waltz" ∧
        (∀ name, .playMusic name ∈ Command.musicCalls lines → jukebox.Loads name) ∧
        (Command.musicCalls lines).getLast? = some (.playMusic "waltz")) ∧
      Act.replay (fun _ => pure ()) (fun _ => pure ()) lines ballroom =
        .ok () { ballroom with notices := cs.map .call } ∧
      ∃ s', heedAll cs jukebox = .ok () s' ∧ s'.notices = jukebox.notices ++ new ∧
        new.any SoundNotice.interrupts = true := by
  intro lines cs new
  -- the sound system is run on the two calls; the rest is about what they are
  have hnotices : (match heedAll cs jukebox with
      | .ok _ s' => some s'.notices
      | .error _ _ => none) = some new := by decide +kernel
  have hcalls : Command.musicCalls lines = cs := by decide +kernel
  have hloads : ∀ name, .playMusic name ∈ Command.musicCalls lines → jukebox.Loads name := by
    intro name hname
    have hor : name = "march" ∨ name = "waltz" := by simpa [hcalls, cs] using hname
    rcases hor with rfl | rfl
    · exact jukebox_loads.1
    · exact jukebox_loads.2
  have hlast : (Command.musicCalls lines).getLast? = some (.playMusic "waltz") := by
    rw [hcalls]
    rfl
  refine ⟨⟨List.mem_singleton_self _, jukebox_plays, hloads, hlast⟩, ?_, ?_⟩
  · rfl
  · cases hheed : heedAll cs jukebox with
    | ok _ s' =>
      rw [hheed] at hnotices
      exact ⟨s', rfl, Option.some.inj hnotices, rfl⟩
    | error _ _ =>
      rw [hheed] at hnotices
      cases hnotices

end Sounding

end VisualNovel
