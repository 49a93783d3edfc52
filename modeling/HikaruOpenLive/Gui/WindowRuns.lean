import HikaruOpenLive.Foundations.KeyIndex
import HikaruOpenLive.Foundations.Runs
import HikaruOpenLive.Gui.WindowTables

/-! # What the GUI says of the plugin windows

That the tables have the right windows is a matter of the order of events: a notification clears
whatever stands under its name when it is read. `always_accounted_iff` says of every run when they are
right in all its states.
-/
set_option autoImplicit false

namespace HikaruOpenLive.Gui.PluginWindows

open Engine Foundations.Registry Foundations.KeyIndex Foundations.Runs

/-- What the GUI says of the windows of each of the plugins is so. -/
structure Accounted (plugins : Set PluginDescriptor) (w : PluginWindows) : Prop where
  single : ∀ plugin ∈ plugins, ∀ i j, w.Lives plugin i → w.Lives plugin j → i = j
  listed : ∀ plugin ∈ plugins, w.settings.isPluginOpen plugin.name = true ↔ ∃ i, w.Holds plugin i
  channel : ∀ plugin ∈ plugins, ∀ i,
    lookup w.settings.cmdTx plugin.name = some i ↔ w.Holds plugin i

/-- No plugin whose window has shown its editor is said to be opening still. -/
def Announced (w : PluginWindows) : Prop :=
  ∀ t ∈ w.threads, t.toldToClose = false → t.phase = .shown →
    w.settings.isPluginOpening t.plugin.name = false

variable {plugins : Set PluginDescriptor} {w : PluginWindows}

theorem wellformed_start (plugins : Set PluginDescriptor) : Wellformed plugins start :=
  ⟨fun _ => rfl, fun _ => ⟨fun h => (nomatch h), fun h => (nomatch h)⟩, fun _ _ h => (nomatch h),
    fun _ h => (nomatch h), fun _ h => (nomatch h)⟩

/-! ## The tables as an index -/

/-- Thread `i` counts under the name of its plugin. -/
def Due (w : PluginWindows) (i : ℕ) (name : String) : Prop :=
  ∃ plugin, w.Holds plugin i ∧ plugin.name = name

/-- No other plugin has the name of one with a window. -/
def Apart (plugins : Set PluginDescriptor) (w : PluginWindows) : Prop :=
  ∀ plugin i, w.Holds plugin i → ∀ q ∈ plugins, q.name = plugin.name → q = plugin

theorem Lives.holds {plugin : PluginDescriptor} {i : ℕ} (h : w.Lives plugin i) : w.Holds plugin i := by
  obtain ⟨t, ht, hp, htold, hphase⟩ := h
  exact ⟨t, ht, hp, htold, Or.inl hphase⟩

theorem Wellformed.holds_mem (hw : Wellformed plugins w) {plugin : PluginDescriptor} {i : ℕ}
    (h : w.Holds plugin i) : plugin ∈ plugins := by
  obtain ⟨t, ht, rfl, -, -⟩ := h
  exact hw.offered t (List.mem_of_getElem? ht)

theorem Wellformed.isPluginOpen_iff (hw : Wellformed plugins w) (name : String) :
    w.settings.isPluginOpen name = true ↔ ∃ i, lookup w.settings.cmdTx name = some i := by
  unfold PluginSettingsState.isPluginOpen
  rw [hw.linked, Option.isSome_iff_exists]

theorem Wellformed.isPluginOpening_eq (hw : Wellformed plugins w) (name : String) :
    w.settings.isPluginOpening name = w.settings.isPluginOpen name := by
  unfold PluginSettingsState.isPluginOpening PluginSettingsState.isPluginOpen
  rw [Bool.eq_iff_iff, decide_eq_true_iff, hw.opening]

/-- The windows are accounted for if and only if the tables index them and no two plugins that are
told apart only by their id have one. -/
theorem accounted_iff (hw : Wellformed plugins w) :
    Accounted plugins w ↔ Indexes (lookup w.settings.cmdTx) w.Due ∧ Apart plugins w := by
  constructor
  · intro h
    refine ⟨fun name i => ⟨fun hi => ?_, ?_⟩, fun plugin i hi q hq hname => ?_⟩
    · obtain ⟨t, ht, rfl⟩ := hw.found name i hi
      exact ⟨t.plugin, (h.channel _ (hw.offered t (List.mem_of_getElem? ht)) i).mp hi, rfl⟩
    · rintro ⟨plugin, hplugin, rfl⟩
      exact (h.channel plugin (hw.holds_mem hplugin) i).mpr hplugin
    · have hfound := (h.channel plugin (hw.holds_mem hi) i).mpr hi
      rw [← hname] at hfound
      obtain ⟨t, ht, hp, -, -⟩ := hi
      obtain ⟨u, hu, hq', -, -⟩ := (h.channel q hq i).mp hfound
      obtain rfl := Option.some.inj (ht.symm.trans hu)
      exact hq'.symm.trans hp
  · rintro ⟨hindex, hapart⟩
    have hchannel (plugin : PluginDescriptor) (hplugin : plugin ∈ plugins) (i : ℕ) :
        lookup w.settings.cmdTx plugin.name = some i ↔ w.Holds plugin i := by
      rw [hindex plugin.name i]
      constructor
      · rintro ⟨q, hq, hname⟩
        rwa [hapart q i hq plugin hplugin hname.symm]
      · exact fun hi => ⟨plugin, hi, rfl⟩
    refine ⟨fun plugin hplugin i j hi hj => ?_, fun plugin hplugin => ?_, hchannel⟩
    · exact hindex.unique ⟨plugin, hi.holds, rfl⟩ ⟨plugin, hj.holds, rfl⟩
    · rw [hw.isPluginOpen_iff]
      exact exists_congr (hchannel plugin hplugin)

/-! ## One step -/

/-- The events are in an order that the tables can follow: a plugin is opened under a name that is its
own, and no notification is read while a window of its name is there that was opened since. -/
def Timely (plugins : Set PluginDescriptor) (w : PluginWindows) : WindowStep → Prop
  | .openPlugin plugin =>
    w.settings.isPluginOpen plugin.name = false → ∀ q ∈ plugins, q.name = plugin.name → q = plugin
  | .pollUpdates =>
    ∀ report ∈ w.settings.closeRx, ∀ plugin i, w.Lives plugin i → plugin.name ≠ report.2.name
  | _ => True

theorem Apart.mono {w' : PluginWindows} (h : Apart plugins w)
    (hholds : ∀ p i, w'.Holds p i → w.Holds p i) : Apart plugins w' :=
  fun p i hi => h p i (hholds p i hi)

theorem due_congr {w' : PluginWindows} (hholds : ∀ p i, w'.Holds p i ↔ w.Holds p i) (i : ℕ)
    (name : String) : w'.Due i name ↔ w.Due i name :=
  exists_congr fun p => and_congr_left' (hholds p i)

/-- What leaves the windows and the tables alone leaves them accounted for. -/
theorem accounted_congr {w' : PluginWindows} (hw : Wellformed plugins w) (hw' : Wellformed plugins w')
    (hcmd : w'.settings.cmdTx = w.settings.cmdTx) (hholds : ∀ p i, w'.Holds p i ↔ w.Holds p i)
    (h : Accounted plugins w) : Accounted plugins w' := by
  obtain ⟨hindex, hapart⟩ := (accounted_iff hw).mp h
  exact (accounted_iff hw').mpr
    ⟨hindex.congr (fun _ => by rw [hcmd]) (due_congr hholds), hapart.mono fun p i => (hholds p i).mp⟩

theorem accounted_openPlugin_iff (hw : Wellformed plugins w) {plugin : PluginDescriptor}
    (hplugin : plugin ∈ plugins) (h : Accounted plugins w) :
    Accounted plugins (w.openPlugin plugin) ↔ Timely plugins w (.openPlugin plugin) := by
  obtain ⟨hindex, hapart⟩ := (accounted_iff hw).mp h
  have htaken : w.settings.isPluginOpen plugin.name = false ↔
      lookup w.settings.cmdTx plugin.name = none := by
    unfold PluginSettingsState.isPluginOpen
    rw [hw.linked, Option.isSome_eq_false_iff, Option.isNone_iff_eq_none]
  by_cases hfree : lookup w.settings.cmdTx plugin.name = none
  · rw [accounted_iff (wellformed_openPlugin hw hplugin)]
    have hnew := openPlugin_new hw hfree
    have hindex' : Indexes (lookup (w.openPlugin plugin).settings.cmdTx) (w.openPlugin plugin).Due := by
      refine hindex.grant w.threads.length hfree (fun name => ?_) fun i name => ?_
      · rw [hnew, lookup_register]
      · unfold Due
        simp only [holds_openPlugin hw hfree, or_and_right, exists_or, and_assoc, exists_and_left,
          exists_eq_left, eq_comm (a := plugin.name)]
    refine ⟨fun h' _ q hq hname => ?_, fun hown => ⟨hindex', fun p i hi q hq hname => ?_⟩⟩
    · exact h'.2 plugin w.threads.length
        ((holds_openPlugin hw hfree plugin w.threads.length).mpr (Or.inr ⟨rfl, rfl⟩)) q hq hname
    · obtain hi | ⟨-, rfl⟩ := (holds_openPlugin hw hfree p i).mp hi
      · exact hapart p i hi q hq hname
      · exact hown (htaken.mpr hfree) q hq hname
  · rw [openPlugin_refused hw hfree]
    exact iff_of_true h fun hopen => absurd (htaken.mp hopen) hfree

theorem accounted_closePlugin (hw : Wellformed plugins w) (name : String) (h : Accounted plugins w) :
    Accounted plugins (w.closePlugin name) := by
  obtain ⟨hindex, hapart⟩ := (accounted_iff hw).mp h
  refine (accounted_iff (wellformed_closePlugin hw name)).mpr ⟨?_, ?_⟩
  · refine hindex.withdraw name (fun k => ?_) fun i k => ?_
    · exact lookup_unregister w.settings.cmdTx name k
    · unfold Due
      simp only [holds_closePlugin]
      constructor
      · rintro ⟨p, ⟨hp, hother⟩, rfl⟩
        exact ⟨⟨p, hp, rfl⟩, fun hname => hother ((hindex name i).mpr ⟨p, hp, hname⟩)⟩
      · rintro ⟨⟨p, hp, rfl⟩, hother⟩
        refine ⟨p, ⟨hp, fun hi => hother ?_⟩, rfl⟩
        obtain ⟨q, ⟨t, ht, hq, -, -⟩, hname⟩ := (hindex name i).mp hi
        obtain ⟨u, hu, hp', -, -⟩ := hp
        obtain rfl := Option.some.inj (ht.symm.trans hu)
        rw [← hname, ← hq, hp']
  · exact hapart.mono fun p i hi => ((holds_closePlugin w name p i).mp hi).1

theorem accounted_pollUpdates_iff (hw : Wellformed plugins w) (h : Accounted plugins w) :
    Accounted plugins { w with settings := w.settings.pollUpdates } ↔ Timely plugins w .pollUpdates := by
  obtain ⟨hindex, hapart⟩ := (accounted_iff hw).mp h
  have hleft (p : PluginDescriptor) (i : ℕ) :
      Holds { w with settings := w.settings.pollUpdates } p i ↔ w.Lives p i := holds_pollUpdates p i
  have hapart' : Apart plugins { w with settings := w.settings.pollUpdates } :=
    hapart.mono fun p i hi => ((hleft p i).mp hi).holds
  rw [accounted_iff (wellformed_pollUpdates hw), and_iff_left hapart',
    indexes_cleared_iff hindex (reportedNames w.settings) (fun i => i ∈ w.settings.closeRx.map Prod.fst)
      ?_ (pollUpdates_spec w.settings).2.1 ?_]
  · unfold Due Timely reportedNames
    simp only [hleft, List.mem_map, not_exists, not_and]
    constructor
    · intro hlate report hreport p i hi hname
      exact hlate i p.name ⟨p, hi, rfl⟩ report hreport hname.symm
    · rintro htimely i name ⟨p, hi, rfl⟩ report hreport hname
      exact htimely report hreport p i hi hname.symm
  · rintro i name ⟨p, ⟨t, ht, hp, -, -⟩, rfl⟩ hi
    obtain ⟨report, hreport, rfl⟩ := List.mem_map.mp hi
    obtain ⟨u, hu, -, hname⟩ := hw.sent report hreport
    obtain rfl := Option.some.inj (ht.symm.trans hu)
    exact List.mem_map.mpr ⟨report, hreport, by rw [← hname, hp]⟩
  · intro i name
    unfold Due
    simp only [hleft, lives_iff hw]
    exact ⟨fun ⟨p, ⟨hp, hi⟩, hname⟩ => ⟨⟨p, hp, hname⟩, hi⟩,
      fun ⟨⟨p, hp, hname⟩, hi⟩ => ⟨p, ⟨hp, hi⟩, hname⟩⟩

theorem sameWindows_sendParamToOpenPlugin (w : PluginWindows) (name : String) (id : ℕ) (value : ℚ) :
    SameWindows w (w.sendParamToOpenPlugin name id value) := by
  unfold sendParamToOpenPlugin
  cases lookup w.settings.cmdTx name with
  | none => exact .of_threads rfl rfl rfl rfl rfl
  | some i => exact sameWindows_send w i (fun h => nomatch h)

theorem sameWindows_startScan (w : PluginWindows) :
    SameWindows w { w with settings := w.settings.startScan } := by
  unfold PluginSettingsState.startScan
  split
  case isTrue => exact .of_threads rfl rfl rfl rfl rfl
  case isFalse => exact .of_threads rfl rfl rfl rfl rfl

/-- The steps that ask nothing of the tables. -/
def Quiet : WindowStep → Prop
  | .openPlugin _ => False
  | .closePlugin _ => False
  | .thread _ _ => False
  | .pollUpdates => False
  | _ => True

theorem sameWindows_step (w : PluginWindows) {i : WindowStep} (h : Quiet i) :
    SameWindows w (w.step i) := by
  cases i with
  | openPlugin plugin => exact h.elim
  | closePlugin name => exact h.elim
  | sendParam name id value => exact sameWindows_sendParamToOpenPlugin w name id value
  | raiseOpenPlugins => exact sameWindows_raise _ w
  | thread i event => exact h.elim
  | feedback event => exact .of_threads rfl rfl rfl rfl rfl
  | startScan => exact sameWindows_startScan w
  | scanned message => exact .of_threads rfl rfl rfl rfl rfl
  | pollUpdates => exact h.elim
  | takeParamFeedback => exact .of_threads rfl rfl rfl rfl rfl

theorem wellformed_step (hw : Wellformed plugins w) {i : WindowStep} (hi : Offered plugins i) :
    Wellformed plugins (w.step i) := by
  have hquiet (hq : Quiet i) : Wellformed plugins (w.step i) := (sameWindows_step w hq).wellformed hw
  cases i with
  | openPlugin plugin => exact wellformed_openPlugin hw hi
  | closePlugin name => exact wellformed_closePlugin hw name
  | sendParam name id value => exact hquiet trivial
  | raiseOpenPlugins => exact hquiet trivial
  | thread i event => exact wellformed_runThread hw i event
  | feedback event => exact hquiet trivial
  | startScan => exact hquiet trivial
  | scanned message => exact hquiet trivial
  | pollUpdates => exact wellformed_pollUpdates hw
  | takeParamFeedback => exact hquiet trivial

theorem SameWindows.accounted {w' : PluginWindows} (h : SameWindows w w') (hw : Wellformed plugins w)
    (ha : Accounted plugins w) : Accounted plugins w' :=
  accounted_congr hw (h.wellformed hw) h.cmdTx h.holds_iff ha

/-- A step keeps the windows accounted for if and only if it comes in time. -/
theorem accounted_step_iff (hw : Wellformed plugins w) {i : WindowStep} (hi : Offered plugins i)
    (h : Accounted plugins w) : Accounted plugins (w.step i) ↔ Timely plugins w i := by
  have hquiet (hq : Quiet i) : Accounted plugins (w.step i) := (sameWindows_step w hq).accounted hw h
  cases i with
  | openPlugin plugin => exact accounted_openPlugin_iff hw hi h
  | closePlugin name => exact iff_of_true (accounted_closePlugin hw name h) trivial
  | sendParam name id value => exact iff_of_true (hquiet trivial) trivial
  | raiseOpenPlugins => exact iff_of_true (hquiet trivial) trivial
  | thread i event =>
    have hcmd : (w.runThread i event).settings.cmdTx = w.settings.cmdTx := by
      cases ht : w.threads[i]? with
      | none => rw [runThread_none ht]
      | some t => exact (runThread_settings ht event).2.1
    exact iff_of_true
      (accounted_congr hw (wellformed_runThread hw i event) hcmd (holds_runThread i event) h) trivial
  | feedback event => exact iff_of_true (hquiet trivial) trivial
  | startScan => exact iff_of_true (hquiet trivial) trivial
  | scanned message => exact iff_of_true (hquiet trivial) trivial
  | pollUpdates => exact accounted_pollUpdates_iff hw h
  | takeParamFeedback => exact iff_of_true (hquiet trivial) trivial

/-! ## Windows that show their editor -/

def Unshown (w : PluginWindows) : Prop :=
  ∀ t ∈ w.threads, t.toldToClose = false → t.phase ≠ .shown

/-- The step shows no editor that has not been told to close. -/
def Unseen (w : PluginWindows) : WindowStep → Prop
  | .thread i (.opened (.ok ())) =>
    ∀ t, w.threads[i]? = some t → t.phase = .loading → t.toldToClose = true
  | _ => True

/-- A window in use is listed, and so it is opening: that none is said to be is that none is shown. -/
theorem announced_iff (hw : Wellformed plugins w) (h : Accounted plugins w) :
    w.Announced ↔ w.Unshown := by
  refine forall₃_congr fun t ht htold => ?_
  constructor
  · intro hannounced hshown
    obtain ⟨i, hi⟩ := List.mem_iff_getElem?.mp ht
    have hholds : w.Holds t.plugin i := ⟨t, hi, rfl, htold, Or.inl (by rw [hshown]; decide)⟩
    have hopen := (h.listed t.plugin (hw.offered t ht)).mpr ⟨i, hholds⟩
    rw [← hw.isPluginOpening_eq, hannounced hshown] at hopen
    exact nomatch hopen
  · exact fun hunshown hshown => absurd hshown hunshown

theorem SameWindows.unshown {w' : PluginWindows} (h : SameWindows w w') (hu : w.Unshown) :
    w'.Unshown := by
  intro t' ht' htold
  obtain ⟨i, hi⟩ := List.mem_iff_getElem?.mp ht'
  obtain ⟨t, ht, -, hph, hto⟩ := h.symm.thread hi
  rw [← hph]
  exact hu t (List.mem_of_getElem? ht) (hto.trans htold)

theorem unshown_runThread_iff (h : w.Unshown) (i : ℕ) (event : ThreadEvent) :
    (w.runThread i event).Unshown ↔ w.Unseen (.thread i event) := by
  cases ht : w.threads[i]? with
  | none =>
    rw [runThread_none ht]
    refine iff_of_true h ?_
    unfold Unseen
    split
    case h_1 heq =>
      obtain ⟨rfl, -⟩ := WindowStep.thread.inj heq
      exact fun t ht' => nomatch ht.symm.trans ht'
    case h_2 => trivial
  | some t =>
    have hmem := List.mem_of_getElem? ht
    constructor
    · intro hunshown
      unfold Unseen
      split
      case h_1 heq =>
        obtain ⟨rfl, rfl⟩ := WindowStep.thread.inj heq
        intro u hu hloading
        obtain rfl := Option.some.inj (ht.symm.trans hu)
        by_contra htold
        have hrun : t.runPluginWindow (.opened (.ok ())) = ({ t with phase := .shown }, none) :=
          if_pos hloading
        have hnew : ({ t with phase := .shown } : WindowThread) ∈
            (w.runThread i (.opened (.ok ()))).threads := by
          refine List.mem_of_getElem? (i := i) ?_
          rw [thread_runThread ht, if_pos rfl, hrun]
        exact hunshown _ hnew (Bool.eq_false_iff.mpr htold) rfl
      case h_2 => trivial
    · intro hunseen u hu htold hshown
      obtain ⟨j, hj⟩ := List.mem_iff_getElem?.mp hu
      rw [thread_runThread ht] at hj
      split at hj
      case isTrue =>
        obtain rfl := Option.some.inj hj
        rw [(t.runPluginWindow_spec event).2.1] at htold
        obtain hshown | ⟨hloading, rfl⟩ := WindowThread.runPluginWindow_shown hshown
        · exact h t hmem htold hshown
        · exact nomatch htold.symm.trans (hunseen t ht hloading)
      case isFalse => exact h u (List.mem_of_getElem? hj) htold hshown

theorem unshown_step_iff (h : w.Unshown) (i : WindowStep) : (w.step i).Unshown ↔ w.Unseen i := by
  have hquiet (hq : Quiet i) : (w.step i).Unshown := (sameWindows_step w hq).unshown h
  cases i with
  | openPlugin plugin =>
    refine iff_of_true ?_ trivial
    unfold step openPlugin
    dsimp only
    split
    case isTrue => exact h
    case isFalse =>
      intro t ht
      obtain ht | ht := List.mem_append.mp ht
      · exact h t ht
      · obtain rfl := List.mem_singleton.mp ht
        intro _ hshown
        cases hshown
  | closePlugin name =>
    refine iff_of_true (fun t ht => ?_) trivial
    obtain ⟨i, hi⟩ := List.mem_iff_getElem?.mp ht
    rw [step, thread_closePlugin] at hi
    obtain ⟨u, hu, rfl⟩ := Option.map_eq_some_iff.mp hi
    have hkept := h u (List.mem_of_getElem? hu)
    split
    case isTrue =>
      intro htold
      cases (Bool.or_eq_false_iff.mp htold).2
    case isFalse => exact hkept
  | sendParam name id value => exact iff_of_true (hquiet trivial) trivial
  | raiseOpenPlugins => exact iff_of_true (hquiet trivial) trivial
  | thread i event => exact unshown_runThread_iff h i event
  | feedback event => exact iff_of_true (hquiet trivial) trivial
  | startScan => exact iff_of_true (hquiet trivial) trivial
  | scanned message => exact iff_of_true (hquiet trivial) trivial
  | pollUpdates => exact iff_of_true h trivial
  | takeParamFeedback => exact iff_of_true (hquiet trivial) trivial

/-! ## Runs -/

theorem along_offered {is : List WindowStep} (h : ∀ plugin, .openPlugin plugin ∈ is → plugin ∈ plugins) :
    Along step (fun _ i => Offered plugins i) w is := by
  refine along_of_forall_mem fun i hi => ?_
  unfold Offered
  split
  case h_1 plugin => exact h plugin hi
  case h_2 => trivial

theorem accounted_start (plugins : Set PluginDescriptor) : Accounted plugins start := by
  refine (accounted_iff (wellformed_start plugins)).mpr ⟨fun name i => ?_, fun plugin i hi => ?_⟩
  · exact ⟨fun hi => (nomatch hi), fun ⟨_, ⟨_, ht, _⟩, _⟩ => (nomatch ht)⟩
  · obtain ⟨t, ht, -⟩ := hi
    exact nomatch ht

/-- Whatever happens, a plugin is opening exactly as long as it is open. -/
theorem always_opening_eq_open (is : List WindowStep) :
    Always step (fun w => ∀ name, w.settings.isPluginOpening name = w.settings.isPluginOpen name)
      start is := by
  have hall : Always step (Wellformed Set.univ) start is := by
    refine always_of_step (fun w i hw => wellformed_step hw ?_) (wellformed_start Set.univ)
    cases i <;> trivial
  exact hall.mono fun w hw => hw.isPluginOpening_eq

/-- The windows are accounted for all along a run if and only if every step of it comes in time, and
then none that has shown its editor is said to be opening if and only if none in use shows it. -/
theorem always_accounted_iff {is : List WindowStep}
    (hoffered : ∀ plugin, .openPlugin plugin ∈ is → plugin ∈ plugins) :
    (Always step (Accounted plugins) start is ↔ Along step (Timely plugins) start is) ∧
    (Always step (fun w => Accounted plugins w ∧ w.Announced) start is ↔
      Along step (fun w i => Timely plugins w i ∧ w.Unseen i) start is) := by
  have hrun := along_offered (w := start) hoffered
  have hkeep (w : PluginWindows) (i : WindowStep) (hi : Offered plugins i) (hw : Wellformed plugins w) :
      Wellformed plugins (w.step i) := wellformed_step hw hi
  have hstart := wellformed_start plugins
  have hempty : start.Announced := fun t ht => nomatch ht
  constructor
  · exact always_iff_along_given hkeep (fun w i hi hw => accounted_step_iff hw hi) hstart
      (accounted_start plugins) hrun
  · refine always_iff_along_given hkeep (fun w i hi hw hall => ?_) hstart
      ⟨accounted_start plugins, hempty⟩ hrun
    have hunshown := (announced_iff hw hall.1).mp hall.2
    rw [← accounted_step_iff hw hi hall.1, ← unshown_step_iff hunshown i]
    exact and_congr_right fun ha => announced_iff (hkeep w i hi hw) ha

def synth : PluginDescriptor := ⟨"CLAP:/usr/lib/clap/Synth.clap", "Synth", "/usr/lib/clap/Synth.clap", .clap⟩

/-- The same instrument in its other format. -/
def synthVst3 : PluginDescriptor := ⟨"VST3:/usr/lib/vst3/Synth.vst3", "Synth", "/usr/lib/vst3/Synth.vst3", .vst3⟩

/-- Opened, closed while it is loading, and opened again when that has been reported. -/
def retried : List WindowStep :=
  [.openPlugin synth, .closePlugin "Synth", .thread 0 (.opened (.ok ())), .thread 0 (.turn .idle),
    .pollUpdates, .openPlugin synth]

theorem always_accounted_retried :
    Always step (fun w => Accounted {synth} w ∧ w.Announced) start retried := by
  refine (always_accounted_iff fun plugin h => ?_).2.mpr ?_
  · simpa [retried] using h
  · refine ⟨⟨fun _ _ hq _ => hq, trivial⟩, ⟨trivial, trivial⟩, ⟨trivial, fun t ht _ => ?_⟩,
      ⟨trivial, trivial⟩, ⟨?_, trivial⟩, ⟨fun _ _ hq _ => hq, trivial⟩, trivial⟩
    · obtain rfl := Option.some.inj ht
      rfl
    · rintro report - plugin i ⟨t, ht, -, htold, -⟩
      match i, ht with
      | 0, ht =>
        obtain rfl := Option.some.inj ht
        exact nomatch htold

/-- Closed and opened again before the end of the first window is read: the second one is then lost to
the GUI, and the next request opens a third beside it. A plugin is listed as open when one of its name
is, and it is opening still when its editor has been shown. -/
theorem not_always_accounted_reopened :
    ¬ Always step (Accounted {synth}) start
        [.openPlugin synth, .closePlugin "Synth", .openPlugin synth, .thread 0 (.opened (.ok ())),
          .thread 0 (.turn .idle), .pollUpdates, .openPlugin synth] ∧
      ¬ Always step (Accounted {synth, synthVst3}) start [.openPlugin synth] ∧
      ¬ Always step Announced start [.openPlugin synth, .thread 0 (.opened (.ok ()))] := by
  refine ⟨fun h => ?_, fun h => ?_, fun h => ?_⟩
  · have hsame := h.final.single synth rfl 1 2 ⟨_, rfl, rfl, rfl, by decide⟩ ⟨_, rfl, rfl, rfl, by decide⟩
    exact nomatch hsame
  · obtain ⟨i, t, ht, hp, -⟩ := (h.final.listed synthVst3 (Or.inr rfl)).mp rfl
    match i, ht with
    | 0, ht =>
      obtain rfl := Option.some.inj ht
      exact absurd hp (by decide)
  · exact absurd (h.final _ List.mem_cons_self rfl rfl) (by decide)

end HikaruOpenLive.Gui.PluginWindows
