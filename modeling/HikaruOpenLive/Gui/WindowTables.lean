import HikaruOpenLive.Gui.PluginWindows

/-! # The tables of the plugin windows

The three tables of `PluginSettingsState` always have the same names (`Wellformed`, kept by each
operation), so a plugin that is open is also "opening" for as long as it is open. `Holds` is what the
tables should have: for each operation one lemma says what it does to it.
-/
set_option autoImplicit false

namespace HikaruOpenLive.Gui.PluginWindows

open Engine Foundations Foundations.Registry

/-- Thread `i` is alive and has not been told to close. -/
def Lives (w : PluginWindows) (plugin : PluginDescriptor) (i : ℕ) : Prop :=
  ∃ t, w.threads[i]? = some t ∧ t.plugin = plugin ∧ t.toldToClose = false ∧ t.phase ≠ .ended

/-- Thread `i` has not been told to close, and it is alive or its notification is not yet delivered. -/
def Holds (w : PluginWindows) (plugin : PluginDescriptor) (i : ℕ) : Prop :=
  ∃ t, w.threads[i]? = some t ∧ t.plugin = plugin ∧ t.toldToClose = false ∧
    (t.phase ≠ .ended ∨ i ∈ w.settings.closeRx.map Prod.fst)

/-! ## The tables -/

structure Wellformed (plugins : Set PluginDescriptor) (w : PluginWindows) : Prop where
  linked : ∀ name, lookup w.settings.openPlugins name = lookup w.settings.cmdTx name
  opening : ∀ name, name ∈ w.settings.opening ↔ (lookup w.settings.openPlugins name).isSome = true
  found : ∀ name i, lookup w.settings.cmdTx name = some i →
    ∃ t, w.threads[i]? = some t ∧ t.plugin.name = name
  sent : ∀ report ∈ w.settings.closeRx,
    ∃ t, w.threads[report.1]? = some t ∧ t.phase = .ended ∧ t.plugin.name = report.2.name
  offered : ∀ t ∈ w.threads, t.plugin ∈ plugins

/-- The step asks for a window only of a plugin that is there to be opened. -/
def Offered (plugins : Set PluginDescriptor) : WindowStep → Prop
  | .openPlugin plugin => plugin ∈ plugins
  | _ => True

variable {plugins : Set PluginDescriptor} {w w' : PluginWindows}

/-- As many windows in the same state under the same names; other commands may wait for them. -/
structure SameWindows (w w' : PluginWindows) : Prop where
  threads : w'.threads.map (fun t => (t.plugin, t.phase, t.toldToClose)) =
    w.threads.map (fun t => (t.plugin, t.phase, t.toldToClose))
  openPlugins : w'.settings.openPlugins = w.settings.openPlugins
  cmdTx : w'.settings.cmdTx = w.settings.cmdTx
  opening : w'.settings.opening = w.settings.opening
  closeRx : w'.settings.closeRx = w.settings.closeRx

theorem SameWindows.symm (h : SameWindows w w') : SameWindows w' w :=
  ⟨h.threads.symm, h.openPlugins.symm, h.cmdTx.symm, h.opening.symm, h.closeRx.symm⟩

theorem SameWindows.trans {w'' : PluginWindows} (h : SameWindows w w') (h' : SameWindows w' w'') :
    SameWindows w w'' :=
  ⟨h'.threads.trans h.threads, h'.openPlugins.trans h.openPlugins, h'.cmdTx.trans h.cmdTx,
    h'.opening.trans h.opening, h'.closeRx.trans h.closeRx⟩

theorem SameWindows.of_threads (h : w'.threads = w.threads)
    (hopen : w'.settings.openPlugins = w.settings.openPlugins)
    (hcmd : w'.settings.cmdTx = w.settings.cmdTx) (hopening : w'.settings.opening = w.settings.opening)
    (hclose : w'.settings.closeRx = w.settings.closeRx) : SameWindows w w' :=
  ⟨by rw [h], hopen, hcmd, hopening, hclose⟩

theorem SameWindows.thread (h : SameWindows w w') {i : ℕ} {t : WindowThread}
    (ht : w.threads[i]? = some t) :
    ∃ t', w'.threads[i]? = some t' ∧ t'.plugin = t.plugin ∧ t'.phase = t.phase ∧
      t'.toldToClose = t.toldToClose := by
  have hi := congrArg (fun l => l[i]?) h.threads
  simp only [List.getElem?_map, ht, Option.map_some] at hi
  obtain ⟨t', ht', heq⟩ := Option.map_eq_some_iff.mp hi
  simp only [Prod.mk.injEq] at heq
  exact ⟨t', ht', heq⟩

theorem SameWindows.holds (h : SameWindows w w') {plugin : PluginDescriptor} {i : ℕ}
    (hi : w.Holds plugin i) : w'.Holds plugin i := by
  obtain ⟨t, ht, hplugin, htold, hphase⟩ := hi
  obtain ⟨t', ht', hp, hph, hto⟩ := h.thread ht
  exact ⟨t', ht', hp.trans hplugin, hto.trans htold, by rwa [hph, h.closeRx]⟩

theorem SameWindows.holds_iff (h : SameWindows w w') (plugin : PluginDescriptor) (i : ℕ) :
    w'.Holds plugin i ↔ w.Holds plugin i :=
  ⟨h.symm.holds, h.holds⟩

theorem SameWindows.wellformed (h : SameWindows w w') (hw : Wellformed plugins w) :
    Wellformed plugins w' where
  linked := by
    rw [h.openPlugins, h.cmdTx]
    exact hw.linked
  opening := by
    rw [h.openPlugins, h.opening]
    exact hw.opening
  found := by
    rw [h.cmdTx]
    intro name i hi
    obtain ⟨t, ht, hname⟩ := hw.found name i hi
    obtain ⟨t', ht', hp, -, -⟩ := h.thread ht
    exact ⟨t', ht', by rw [hp, hname]⟩
  sent := by
    rw [h.closeRx]
    intro report hreport
    obtain ⟨t, ht, hended, hname⟩ := hw.sent report hreport
    obtain ⟨t', ht', hp, hph, -⟩ := h.thread ht
    exact ⟨t', ht', hph.trans hended, by rw [hp, hname]⟩
  offered := by
    intro t' ht'
    obtain ⟨i, hi⟩ := List.mem_iff_getElem?.mp ht'
    obtain ⟨t, ht, hp, -, -⟩ := h.symm.thread hi
    rw [← hp]
    exact hw.offered t (List.mem_of_getElem? ht)

theorem sameWindows_send (w : PluginWindows) (i : ℕ) {cmd : WrapperCommand} (hcmd : cmd ≠ .close) :
    SameWindows w (w.send i cmd) := by
  refine ⟨?_, rfl, rfl, rfl, rfl⟩
  refine List.ext_getElem? fun j => ?_
  simp only [send, List.getElem?_map, List.getElem?_modify]
  cases w.threads[j]? with
  | none => rfl
  | some t =>
    by_cases hij : i = j
    · simp [hij, WindowThread.toldToClose_send hcmd]
    · simp [hij]

theorem sameWindows_raise (is : List ℕ) (w : PluginWindows) :
    SameWindows w (is.foldl (fun w i => w.send i .raise) w) := by
  induction is generalizing w with
  | nil => exact .of_threads rfl rfl rfl rfl rfl
  | cons i is ih =>
    have hone : SameWindows w (w.send i .raise) := sameWindows_send w i (by decide)
    exact hone.trans (ih _)

/-! ## Opening -/

/-- An open request is taken if and only if nothing stands under the plugin's name. -/
theorem openPlugin_taken (hw : Wellformed plugins w) (plugin : PluginDescriptor) :
    (w.settings.isPluginOpen plugin.name || w.settings.isPluginOpening plugin.name) = false ↔
      lookup w.settings.cmdTx plugin.name = none := by
  unfold PluginSettingsState.isPluginOpen PluginSettingsState.isPluginOpening
  rw [Bool.or_eq_false_iff, decide_eq_false_iff_not, hw.opening, hw.linked]
  cases lookup w.settings.cmdTx plugin.name <;> simp

theorem openPlugin_refused (hw : Wellformed plugins w) {plugin : PluginDescriptor}
    (h : lookup w.settings.cmdTx plugin.name ≠ none) : w.openPlugin plugin = w := by
  unfold openPlugin
  rw [if_pos]
  exact eq_true_of_ne_false fun hno => h ((openPlugin_taken hw plugin).mp hno)

theorem openPlugin_new (hw : Wellformed plugins w) {plugin : PluginDescriptor}
    (h : lookup w.settings.cmdTx plugin.name = none) :
    w.openPlugin plugin =
      { settings :=
          { w.settings with
            guiErrors := unregister w.settings.guiErrors plugin.name
            opening := insert plugin.name w.settings.opening
            cmdTx := register w.settings.cmdTx plugin.name w.threads.length
            openPlugins := register w.settings.openPlugins plugin.name w.threads.length }
        threads :=
          w.threads ++ [{ plugin, phase := .loading, commands := [], toldToClose := false }] } := by
  unfold openPlugin
  rw [(openPlugin_taken hw plugin).mpr h]
  rfl

theorem wellformed_openPlugin (hw : Wellformed plugins w) {plugin : PluginDescriptor}
    (hplugin : plugin ∈ plugins) : Wellformed plugins (w.openPlugin plugin) := by
  by_cases h : lookup w.settings.cmdTx plugin.name = none
  · rw [openPlugin_new hw h]
    refine ⟨fun name => ?_, fun name => ?_, fun name i hi => ?_, fun report hreport => ?_, fun t ht => ?_⟩
    · simp only [lookup_register, hw.linked]
    · simp only [lookup_register, Finset.mem_insert, hw.opening]
      by_cases hname : name = plugin.name <;> simp [hname]
    · simp only [lookup_register] at hi
      split at hi
      case isTrue hname =>
        obtain rfl := Option.some.inj hi
        exact ⟨_, List.getElem?_concat_length, hname.symm⟩
      case isFalse =>
        obtain ⟨t, ht, hname⟩ := hw.found name i hi
        exact ⟨t, (List.getElem?_append_left (ListEdits.lt_of_getElem? ht)).trans ht, hname⟩
    · obtain ⟨t, ht, hended, hname⟩ := hw.sent report hreport
      exact ⟨t, (List.getElem?_append_left (ListEdits.lt_of_getElem? ht)).trans ht, hended, hname⟩
    · obtain ht | ht := List.mem_append.mp ht
      · exact hw.offered t ht
      · obtain rfl := List.mem_singleton.mp ht
        exact hplugin
  · rw [openPlugin_refused hw h]
    exact hw

theorem holds_openPlugin (hw : Wellformed plugins w) {plugin : PluginDescriptor}
    (h : lookup w.settings.cmdTx plugin.name = none) (p : PluginDescriptor) (i : ℕ) :
    (w.openPlugin plugin).Holds p i ↔ w.Holds p i ∨ i = w.threads.length ∧ p = plugin := by
  rw [openPlugin_new hw h]
  constructor
  · rintro ⟨t, ht, hp, htold, hphase⟩
    by_cases hi : i < w.threads.length
    · exact Or.inl ⟨t, (List.getElem?_append_left hi).symm.trans ht, hp, htold, hphase⟩
    · rw [List.getElem?_append_right (not_lt.mp hi), List.getElem?_singleton] at ht
      split at ht
      case isTrue hzero =>
        obtain rfl := Option.some.inj ht
        exact Or.inr ⟨by omega, hp.symm⟩
      case isFalse => cases ht
  · rintro (⟨t, ht, hp, htold, hphase⟩ | ⟨rfl, rfl⟩)
    · exact ⟨t, (List.getElem?_append_left (ListEdits.lt_of_getElem? ht)).trans ht, hp, htold,
        hphase⟩
    · refine ⟨_, List.getElem?_concat_length, rfl, rfl, Or.inl fun hphase => ?_⟩
      cases hphase

/-! ## Closing -/

theorem thread_closePlugin (w : PluginWindows) (name : String) (i : ℕ) :
    (w.closePlugin name).threads[i]? =
      (w.threads[i]?).map fun t =>
        if lookup w.settings.cmdTx name = some i then t.send .close else t := by
  unfold closePlugin
  cases hcmd : lookup w.settings.cmdTx name with
  | none => cases w.threads[i]? <;> simp
  | some j =>
    simp only [send, List.getElem?_modify, Option.some.injEq]
    rfl

theorem wellformed_closePlugin (hw : Wellformed plugins w) (name : String) :
    Wellformed plugins (w.closePlugin name) := by
  have hthread {i : ℕ} {t : WindowThread} (ht : w.threads[i]? = some t) :
      ∃ t', (w.closePlugin name).threads[i]? = some t' ∧ t'.plugin = t.plugin ∧ t'.phase = t.phase := by
    rw [thread_closePlugin, ht, Option.map_some]
    by_cases hi : lookup w.settings.cmdTx name = some i
    · exact ⟨_, rfl, by rw [if_pos hi]; exact ⟨rfl, rfl⟩⟩
    · exact ⟨_, rfl, by rw [if_neg hi]; exact ⟨rfl, rfl⟩⟩
  refine ⟨fun k => ?_, fun k => ?_, fun k i hi => ?_, fun report hreport => ?_, fun t ht => ?_⟩
  · simp only [closePlugin, lookup_unregister, hw.linked]
  · simp only [closePlugin, lookup_unregister, Finset.mem_erase, hw.opening]
    by_cases hk : k = name <;> simp [hk]
  · simp only [closePlugin, lookup_unregister] at hi
    split at hi
    case isTrue => cases hi
    case isFalse =>
      obtain ⟨t, ht, hname⟩ := hw.found k i hi
      obtain ⟨t', ht', hp, -⟩ := hthread ht
      exact ⟨t', ht', by rw [hp, hname]⟩
  · obtain ⟨t, ht, hended, hname⟩ := hw.sent report hreport
    obtain ⟨t', ht', hp, hph⟩ := hthread ht
    exact ⟨t', ht', hph.trans hended, by rw [hp, hname]⟩
  · obtain ⟨i, hi⟩ := List.mem_iff_getElem?.mp ht
    rw [thread_closePlugin] at hi
    obtain ⟨t₀, ht₀, rfl⟩ := Option.map_eq_some_iff.mp hi
    have hmem := hw.offered t₀ (List.mem_of_getElem? ht₀)
    split
    case isTrue => exact hmem
    case isFalse => exact hmem

theorem holds_closePlugin (w : PluginWindows) (name : String) (p : PluginDescriptor) (i : ℕ) :
    (w.closePlugin name).Holds p i ↔ w.Holds p i ∧ lookup w.settings.cmdTx name ≠ some i := by
  unfold Holds
  rw [thread_closePlugin]
  constructor
  · rintro ⟨t, ht, hp, htold, hphase⟩
    obtain ⟨t₀, ht₀, rfl⟩ := Option.map_eq_some_iff.mp ht
    by_cases hi : lookup w.settings.cmdTx name = some i
    · rw [if_pos hi] at htold
      simp [WindowThread.send] at htold
    · rw [if_neg hi] at hp htold hphase
      exact ⟨⟨t₀, ht₀, hp, htold, hphase⟩, hi⟩
  · rintro ⟨⟨t, ht, hp, htold, hphase⟩, hi⟩
    exact ⟨t, by rw [ht, Option.map_some, if_neg hi], hp, htold, hphase⟩

/-! ## A thread goes on -/

theorem runThread_none {i : ℕ} (h : w.threads[i]? = none) (event : ThreadEvent) :
    w.runThread i event = w := by
  unfold runThread
  rw [h]

theorem thread_runThread {i : ℕ} {t : WindowThread} (h : w.threads[i]? = some t) (event : ThreadEvent)
    (j : ℕ) :
    (w.runThread i event).threads[j]? =
      if i = j then some (t.runPluginWindow event).1 else w.threads[j]? := by
  have hlt := ListEdits.lt_of_getElem? h
  unfold runThread
  rw [h]
  by_cases hij : i = j
  · subst hij
    rw [if_pos rfl]
    exact List.getElem?_set_self hlt
  · rw [if_neg hij]
    exact List.getElem?_set_ne hij

theorem runThread_settings {i : ℕ} {t : WindowThread} (h : w.threads[i]? = some t)
    (event : ThreadEvent) :
    (w.runThread i event).settings.openPlugins = w.settings.openPlugins ∧
    (w.runThread i event).settings.cmdTx = w.settings.cmdTx ∧
    (w.runThread i event).settings.opening = w.settings.opening ∧
    (w.runThread i event).settings.closeRx =
      w.settings.closeRx ++
        ((t.runPluginWindow event).2.map fun error => (i, { name := t.plugin.name, error })).toList := by
  unfold runThread
  rw [h]
  cases hend : (t.runPluginWindow event).2 with
  | none =>
    simp only [hend, Option.map_none, Option.toList_none, List.append_nil]
    exact ⟨trivial, trivial, trivial, trivial⟩
  | some error =>
    simp only [hend, Option.map_some, Option.toList_some]
    exact ⟨trivial, trivial, trivial, trivial⟩

theorem wellformed_runThread (hw : Wellformed plugins w) (i : ℕ) (event : ThreadEvent) :
    Wellformed plugins (w.runThread i event) := by
  cases ht : w.threads[i]? with
  | none =>
    rw [runThread_none ht]
    exact hw
  | some t =>
    obtain ⟨hplugin, -, hgoes, hends⟩ := t.runPluginWindow_spec event
    obtain ⟨hopen, hcmd, hopening, hclose⟩ := runThread_settings ht event
    have hthread {j : ℕ} {u : WindowThread} (hu : w.threads[j]? = some u) :
        ∃ u', (w.runThread i event).threads[j]? = some u' ∧ u'.plugin = u.plugin ∧
          (u.phase = .ended → u'.phase = .ended) := by
      rw [thread_runThread ht]
      by_cases hij : i = j
      · subst hij
        obtain rfl := Option.some.inj (ht.symm.trans hu)
        rw [if_pos rfl]
        refine ⟨_, rfl, hplugin, fun hended => ?_⟩
        cases hend : (t.runPluginWindow event).2 with
        | none => exact (hgoes hend).mpr hended
        | some error => exact (hends error hend).2
      · rw [if_neg hij]
        exact ⟨u, hu, rfl, id⟩
    refine ⟨fun name => ?_, fun name => ?_, fun name j hj => ?_, fun report hreport => ?_, fun u hu => ?_⟩
    · rw [hopen, hcmd]
      exact hw.linked name
    · rw [hopen, hopening]
      exact hw.opening name
    · rw [hcmd] at hj
      obtain ⟨u, hu, hname⟩ := hw.found name j hj
      obtain ⟨u', hu', hp, -⟩ := hthread hu
      exact ⟨u', hu', by rw [hp, hname]⟩
    · rw [hclose] at hreport
      obtain hreport | hreport := List.mem_append.mp hreport
      · obtain ⟨u, hu, hended, hname⟩ := hw.sent report hreport
        obtain ⟨u', hu', hp, hph⟩ := hthread hu
        exact ⟨u', hu', hph hended, by rw [hp, hname]⟩
      · obtain ⟨error, hend, rfl⟩ := Option.map_eq_some_iff.mp (Option.mem_toList.mp hreport)
        exact ⟨_, by rw [thread_runThread ht, if_pos rfl], (hends error hend).2, by rw [hplugin]⟩
    · obtain ⟨j, hj⟩ := List.mem_iff_getElem?.mp hu
      rw [thread_runThread ht] at hj
      split at hj
      case isTrue =>
        obtain rfl := Option.some.inj hj
        rw [hplugin]
        exact hw.offered t (List.mem_of_getElem? ht)
      case isFalse => exact hw.offered u (List.mem_of_getElem? hj)

theorem holds_runThread (i : ℕ) (event : ThreadEvent) (p : PluginDescriptor) (j : ℕ) :
    (w.runThread i event).Holds p j ↔ w.Holds p j := by
  cases ht : w.threads[i]? with
  | none => rw [runThread_none ht]
  | some t =>
    obtain ⟨hplugin, htold, hgoes, hends⟩ := t.runPluginWindow_spec event
    obtain ⟨-, -, -, hclose⟩ := runThread_settings ht event
    unfold Holds
    rw [thread_runThread ht, hclose, List.map_append]
    by_cases hij : i = j
    · subst hij
      rw [if_pos rfl, ht]
      simp only [Option.some.injEq, exists_eq_left', hplugin, htold]
      cases hend : (t.runPluginWindow event).2 with
      | none =>
        simp only [Option.map_none, Option.toList_none, List.map_nil, List.append_nil, ne_eq, hgoes hend]
      | some error =>
        have hnow := (hends error hend).1
        simp [hnow]
    · rw [if_neg hij]
      have hother : j ∉ (((t.runPluginWindow event).2.map fun error =>
          (i, ({ name := t.plugin.name, error } : PluginClosedNotification))).toList.map Prod.fst) := by
        cases (t.runPluginWindow event).2 with
        | none => exact List.not_mem_nil
        | some error => simpa using Ne.symm hij
      simp only [List.mem_append, hother, or_false]

/-! ## Reading the notifications -/

theorem receiveScan_foldl (messages : List ScanMessage) (s : PluginSettingsState) :
    (messages.foldl PluginSettingsState.receiveScan s).openPlugins = s.openPlugins ∧
    (messages.foldl PluginSettingsState.receiveScan s).cmdTx = s.cmdTx ∧
    (messages.foldl PluginSettingsState.receiveScan s).opening = s.opening ∧
    (messages.foldl PluginSettingsState.receiveScan s).closeRx = s.closeRx := by
  induction messages generalizing s with
  | nil => exact ⟨rfl, rfl, rfl, rfl⟩
  | cons message messages ih =>
    obtain ⟨hopen, hcmd, hopening, hclose⟩ := ih (s.receiveScan message)
    rw [List.foldl_cons, hopen, hcmd, hopening, hclose]
    cases message with
    | progress file => exact ⟨rfl, rfl, rfl, rfl⟩
    | found plugin =>
      unfold PluginSettingsState.receiveScan
      dsimp only
      split
      case isTrue => exact ⟨rfl, rfl, rfl, rfl⟩
      case isFalse => exact ⟨rfl, rfl, rfl, rfl⟩
    | finished found errors => exact ⟨rfl, rfl, rfl, rfl⟩

theorem receiveClosed_foldl (notifs : List PluginClosedNotification) (s : PluginSettingsState) :
    (notifs.foldl PluginSettingsState.receiveClosed s).openPlugins =
      (notifs.map PluginClosedNotification.name).foldl unregister s.openPlugins ∧
    (notifs.foldl PluginSettingsState.receiveClosed s).cmdTx =
      (notifs.map PluginClosedNotification.name).foldl unregister s.cmdTx ∧
    (∀ name, name ∈ (notifs.foldl PluginSettingsState.receiveClosed s).opening ↔
      name ∈ s.opening ∧ name ∉ notifs.map PluginClosedNotification.name) ∧
    (notifs.foldl PluginSettingsState.receiveClosed s).closeRx = s.closeRx := by
  induction notifs generalizing s with
  | nil => exact ⟨rfl, rfl, fun name => by simp, rfl⟩
  | cons notif notifs ih =>
    obtain ⟨hopen, hcmd, hopening, hclose⟩ := ih (s.receiveClosed notif)
    rw [List.foldl_cons, List.map_cons, List.foldl_cons, List.foldl_cons, hopen, hcmd, hclose]
    refine ⟨rfl, rfl, fun name => ?_, rfl⟩
    rw [hopening]
    simp only [PluginSettingsState.receiveClosed, Finset.mem_erase, List.mem_cons, not_or]
    exact ⟨fun h => ⟨h.1.2, h.1.1, h.2⟩, fun h => ⟨⟨h.2.1, h.1⟩, h.2.2⟩⟩

/-- The names that a poll clears. -/
def reportedNames (s : PluginSettingsState) : List String :=
  s.closeRx.map fun report => report.2.name

theorem receiveAllClosed_spec (s : PluginSettingsState) :
    (∀ name, lookup s.receiveAllClosed.openPlugins name =
      if name ∈ reportedNames s then none else lookup s.openPlugins name) ∧
    (∀ name, lookup s.receiveAllClosed.cmdTx name =
      if name ∈ reportedNames s then none else lookup s.cmdTx name) ∧
    (∀ name, name ∈ s.receiveAllClosed.opening ↔ name ∈ s.opening ∧ name ∉ reportedNames s) ∧
    s.receiveAllClosed.closeRx = [] := by
  obtain ⟨hopen, hcmd, hopening, hclose⟩ :=
    receiveClosed_foldl (s.closeRx.map Prod.snd) { s with closeRx := [] }
  have hnames : (s.closeRx.map Prod.snd).map PluginClosedNotification.name = reportedNames s :=
    List.map_map
  rw [hnames] at hopen hcmd hopening
  unfold PluginSettingsState.receiveAllClosed
  refine ⟨fun name => ?_, fun name => ?_, hopening, hclose⟩
  · rw [hopen, lookup_unregisterAll]
  · rw [hcmd, lookup_unregisterAll]

theorem pollUpdates_spec (s : PluginSettingsState) :
    (∀ name, lookup s.pollUpdates.openPlugins name =
      if name ∈ reportedNames s then none else lookup s.openPlugins name) ∧
    (∀ name, lookup s.pollUpdates.cmdTx name =
      if name ∈ reportedNames s then none else lookup s.cmdTx name) ∧
    (∀ name, name ∈ s.pollUpdates.opening ↔ name ∈ s.opening ∧ name ∉ reportedNames s) ∧
    s.pollUpdates.closeRx = [] := by
  have hspec := receiveAllClosed_spec (s.rx.foldl PluginSettingsState.receiveScan { s with rx := [] })
  obtain ⟨hopen, hcmd, hopening, hclose⟩ := receiveScan_foldl s.rx { s with rx := [] }
  unfold reportedNames at hspec ⊢
  rw [hopen, hcmd, hopening, hclose] at hspec
  exact hspec

theorem wellformed_pollUpdates (hw : Wellformed plugins w) :
    Wellformed plugins { w with settings := w.settings.pollUpdates } := by
  obtain ⟨hopen, hcmd, hopening, hclose⟩ := pollUpdates_spec w.settings
  refine ⟨fun name => ?_, fun name => ?_, fun name i hi => ?_, fun report hreport => ?_, hw.offered⟩
  · rw [hopen, hcmd, hw.linked]
  · rw [hopening, hopen, hw.opening]
    by_cases hname : name ∈ reportedNames w.settings <;> simp [hname]
  · rw [hcmd] at hi
    split at hi
    case isTrue => cases hi
    case isFalse => exact hw.found name i hi
  · rw [hclose] at hreport
    cases hreport

/-- What a poll leaves to be counted is what is alive. -/
theorem holds_pollUpdates (p : PluginDescriptor) (i : ℕ) :
    Holds { w with settings := w.settings.pollUpdates } p i ↔ w.Lives p i := by
  unfold Holds Lives
  rw [(pollUpdates_spec w.settings).2.2.2]
  simp only [List.map_nil, List.not_mem_nil, or_false]

theorem lives_iff (hw : Wellformed plugins w) (p : PluginDescriptor) (i : ℕ) :
    w.Lives p i ↔ w.Holds p i ∧ i ∉ w.settings.closeRx.map Prod.fst := by
  constructor
  · rintro ⟨t, ht, hp, htold, hphase⟩
    refine ⟨⟨t, ht, hp, htold, Or.inl hphase⟩, fun hi => ?_⟩
    obtain ⟨report, hreport, rfl⟩ := List.mem_map.mp hi
    obtain ⟨u, hu, hended, -⟩ := hw.sent report hreport
    obtain rfl := Option.some.inj (ht.symm.trans hu)
    exact hphase hended
  · rintro ⟨⟨t, ht, hp, htold, hphase⟩, hi⟩
    exact ⟨t, ht, hp, htold, hphase.resolve_right hi⟩

end HikaruOpenLive.Gui.PluginWindows
