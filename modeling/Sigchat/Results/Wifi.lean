import Mathlib.Data.List.Basic
import Sigchat.Model.Wifi

/-!
# Connecting to the network

What `SigChat::wifi` does on the runs that do not panic, however often the user
lets it try: which requests it makes, what it returns, and what becomes of the
progress bar.

* `wifiLoop_shows` — the tries that fail, and how the last one ends;
* `wifi_runs`      — with the question whether there is a network already.
-/

namespace Sigchat.Results.Wifi

open Sigchat.Lib
open Sigchat.Wifi

-- ---------------------------------------------------------------------------
-- Events
-- ---------------------------------------------------------------------------

/-- A request and its answer. -/
abbrev Event := Sigma NetResp

def seen (r : NetReq) (x : NetResp r) : List Event := [⟨r, x⟩]

/-- An act that has succeeded. -/
def did (a : Act) : Event := ⟨.act a, true⟩

/-- The radio says what address it has. -/
def told (conf : Option DhcpState) : Event := ⟨.getIpv4Config, conf⟩

/-- The user has chosen. -/
def chose (index : Option Nat) : Event := ⟨.getRadioIndex, index⟩

/-- A step that must succeed has succeeded if the whole returns. -/
theorem orPanic_shows {α : Type} {a : Act} {p : Panic} {rest : Prog NetResp (Except Panic α)}
    {es : List Event} {b : α} :
    (orPanic a p rest).Shows seen es (.ok b) ↔
      ∃ es', es = did a :: es' ∧ rest.Shows seen es' (.ok b) := by
  constructor
  · rintro ⟨x, es', rfl, h⟩
    rcases x with _ | _
    · cases h.2
    · exact ⟨es', rfl, h⟩
  · rintro ⟨es', rfl, h⟩
    exact ⟨true, es', rfl, h⟩

/-- What follows a result comes after the events that led to it. -/
theorem onOk_shows {α β : Type} {p : Prog NetResp (Except Panic α)}
    {f : α → Prog NetResp (Except Panic β)} {es : List Event} {b : β} :
    (onOk p f).Shows seen es (.ok b) ↔ ∃ a es₁ es₂, es = es₁ ++ es₂ ∧
      p.Shows seen es₁ (.ok a) ∧ (f a).Shows seen es₂ (.ok b) := by
  rw [onOk, Prog.shows_bind]
  constructor
  · rintro ⟨r, es₁, es₂, rfl, hFirst, hRest⟩
    rcases r with e | a
    · cases hRest.2
    · exact ⟨a, es₁, es₂, rfl, hFirst, hRest⟩
  · rintro ⟨a, es₁, es₂, rfl, hFirst, hRest⟩
    exact ⟨.ok a, es₁, es₂, rfl, hFirst, hRest⟩

-- ---------------------------------------------------------------------------
-- A try
-- ---------------------------------------------------------------------------

def question (index : Option Nat) : List Event :=
  [did (.addListItem "yes"), did (.addListItem "no"), did (.getRadiobutton "Connect to WiFi?"),
    chose index]

/-- The question is answered yes exactly with the first button. -/
theorem wifiTryModal_shows {es : List Event} {yes : Bool} :
    wifiTryModal.Shows seen es (.ok yes) ↔
      ∃ index, es = question index ∧ (yes = true ↔ index = some 0) := by
  rw [wifiTryModal, orPanic_shows]
  simp only [orPanic_shows, Prog.shows_call]
  -- The item, the buttons and the answer, in this order.
  constructor
  · rintro ⟨_, rfl, _, rfl, _, rfl, index, es', rfl, hEnd⟩
    rcases index with _ | button
    · obtain ⟨rfl, hYes⟩ := hEnd
      exact ⟨none, rfl, by rw [Except.ok.inj hYes]; decide⟩
    · obtain ⟨rfl, hYes⟩ := hEnd
      refine ⟨some button, rfl, ?_⟩
      rw [Except.ok.inj hYes, decide_eq_true_iff, Option.some.injEq]
  · rintro ⟨index, rfl, hYes⟩
    refine ⟨_, rfl, _, rfl, _, rfl, index, [], rfl, ?_⟩
    have hChosen : yes = decide (index = some 0) := by
      rw [Bool.eq_iff_iff, hYes, decide_eq_true_iff]
    rcases index with _ | button
    · exact ⟨rfl, congrArg Except.ok hChosen⟩
    · simp only [Option.some.injEq] at hChosen
      exact ⟨rfl, congrArg Except.ok hChosen⟩

/-- A second under the progress bar. -/
def second (wait : Nat) (conf : Option DhcpState) : List Event :=
  [did (.sleepMs 1000), did (.updateProgress wait), told conf]

def seconds (waits : List Nat) (confs : List (Option DhcpState)) : List Event :=
  (List.zipWith second waits confs).flatten

def Unbound (confs : List (Option DhcpState)) : Prop := ∀ conf ∈ confs, conf ≠ some .bound

/-- The radio is watched to the end, or until it is bound. -/
def Watched (waits : List Nat) (confs : List (Option DhcpState)) (es : List Event) : Bool → Prop
  | true => confs.length < waits.length ∧
      es = seconds waits (confs ++ [some .bound]) ++ [did .finishProgress]
  | false => confs.length = waits.length ∧ es = seconds waits confs

/-- Watching for one second more. -/
theorem watched_cons {wait : Nat} {waits : List Nat} {conf : Option DhcpState}
    {confs : List (Option DhcpState)} {es : List Event} {connected : Bool} :
    Watched (wait :: waits) (conf :: confs) es connected ↔
      ∃ es', es = second wait conf ++ es' ∧ Watched waits confs es' connected := by
  cases connected with
  | true =>
    constructor
    · rintro ⟨hLen, rfl⟩
      exact ⟨_, List.append_assoc .., Nat.lt_of_succ_lt_succ hLen, rfl⟩
    · rintro ⟨es', rfl, hLen, rfl⟩
      exact ⟨Nat.succ_lt_succ hLen, (List.append_assoc ..).symm⟩
  | false =>
    constructor
    · rintro ⟨hLen, rfl⟩
      exact ⟨_, rfl, Nat.succ.inj hLen, rfl⟩
    · rintro ⟨es', rfl, hLen, rfl⟩
      exact ⟨congrArg Nat.succ hLen, rfl⟩

theorem seconds_one (wait : Nat) (waits : List Nat) (conf : Option DhcpState) :
    seconds (wait :: waits) [conf] = second wait conf := by
  rw [seconds, List.zipWith_cons_cons, List.zipWith_nil_right]
  exact List.append_nil _

/-- Watching ends with the first second that is bound, or with the last. -/
theorem watch_shows {waits : List Nat} {es : List Event} {connected : Bool} :
    (watch waits).Shows seen es (.ok connected) ↔
      ∃ confs, Unbound confs ∧ Watched waits confs es connected := by
  -- Second by second.
  induction waits generalizing es with
  | nil =>
    rw [watch, Prog.shows_done]
    constructor
    · rintro ⟨rfl, hEnd⟩
      rw [Except.ok.inj hEnd]
      exact ⟨[], List.forall_mem_nil _, rfl, rfl⟩
    · rintro ⟨confs, -, hWatched⟩
      cases connected with
      | true => exact absurd hWatched.1 (Nat.not_lt_zero _)
      | false =>
        rw [List.length_eq_zero_iff.mp hWatched.1] at hWatched
        exact ⟨hWatched.2, rfl⟩
  | cons wait waits ih =>
    rw [watch, orPanic_shows]
    simp only [orPanic_shows, Prog.shows_call]
    constructor
    · rintro ⟨_, rfl, _, rfl, conf, es', rfl, hRest⟩
      by_cases hBound : conf = some .bound
      · rw [if_pos hBound, orPanic_shows] at hRest
        obtain ⟨_, rfl, rfl, hEnd⟩ := hRest
        rw [Except.ok.inj hEnd, hBound]
        refine ⟨[], List.forall_mem_nil _, Nat.zero_lt_succ _, ?_⟩
        rw [List.nil_append, seconds_one]
        rfl
      · rw [if_neg hBound] at hRest
        obtain ⟨confs, hUnbound, hWatched⟩ := ih.mp hRest
        exact ⟨conf :: confs, List.forall_mem_cons.mpr ⟨hBound, hUnbound⟩,
          watched_cons.mpr ⟨es', rfl, hWatched⟩⟩
    · rintro ⟨confs, hUnbound, hWatched⟩
      rcases confs with _ | ⟨conf, confs⟩
      · cases connected with
        | true =>
          obtain ⟨-, rfl⟩ := hWatched
          rw [List.nil_append, seconds_one]
          refine ⟨_, rfl, _, rfl, some .bound, [did .finishProgress], rfl, ?_⟩
          rw [if_pos rfl]
          exact orPanic_shows.mpr ⟨[], rfl, rfl, rfl⟩
        | false => cases hWatched.1
      · obtain ⟨hHere, hLater⟩ := List.forall_mem_cons.mp hUnbound
        obtain ⟨es', rfl, hRest⟩ := watched_cons.mp hWatched
        refine ⟨_, rfl, _, rfl, conf, es', rfl, ?_⟩
        rw [if_neg hHere]
        exact ih.mpr ⟨confs, hLater, hRest⟩

/-- What comes before the first second. -/
def started : List Event :=
  [did .connectionManagerWifiOnAndRun, did (.startProgress "Connecting ..." 0 10 0),
    did .ticktimerNew]

/-- The radio is switched on and watched. -/
def Made (es : List Event) (connected : Bool) : Prop :=
  ∃ confs es', Unbound confs ∧ Watched (List.range wifiTimeout) confs es' connected ∧
    es = started ++ es'

/-- Connecting is switching the radio on and watching it. -/
theorem tryConnect_shows {es : List Event} {connected : Bool} :
    tryConnect.Shows seen es (.ok connected) ↔ Made es connected := by
  rw [tryConnect]
  simp only [orPanic_shows, watch_shows]
  constructor
  · rintro ⟨_, rfl, _, rfl, es', rfl, confs, hUnbound, hWatched⟩
    exact ⟨confs, es', hUnbound, hWatched, rfl⟩
  · rintro ⟨confs, es', hUnbound, hWatched, rfl⟩
    exact ⟨_, rfl, _, rfl, es', rfl, confs, hUnbound, hWatched⟩

/-- A try of the loop: the user does not want it, or it connects, or it does
not. -/
def Tried (es : List Event) (r : Option Bool) : Prop :=
  (∃ index, index ≠ some 0 ∧ es = question index ∧ r = some false) ∨
    ∃ es' connected, Made es' connected ∧ es = question (some 0) ++ es' ∧
      r = if connected then some true else none

/-- A try asks, and then connects if the answer is yes. -/
theorem wifiTry_shows {es : List Event} {r : Option Bool} :
    wifiTry.Shows seen es (.ok r) ↔ Tried es r := by
  rw [wifiTry, onOk_shows]
  constructor
  · rintro ⟨yes, es₁, es₂, rfl, hAsk, hRest⟩
    obtain ⟨index, rfl, hYes⟩ := wifiTryModal_shows.mp hAsk
    by_cases hIndex : index = some 0
    · rw [if_pos (hYes.mpr hIndex), onOk_shows] at hRest
      obtain ⟨connected, es₁, es₂, rfl, hMade, rfl, hEnd⟩ := hRest
      rw [hIndex, List.append_nil]
      exact .inr ⟨es₁, connected, tryConnect_shows.mp hMade, rfl, Except.ok.inj hEnd⟩
    · rw [if_neg (mt hYes.mp hIndex)] at hRest
      obtain ⟨rfl, hEnd⟩ := hRest
      exact .inl ⟨index, hIndex, List.append_nil _, Except.ok.inj hEnd⟩
  · rintro (⟨index, hIndex, rfl, rfl⟩ | ⟨es', connected, hMade, rfl, rfl⟩)
    · have hAsk : wifiTryModal.Shows seen (question index) (.ok false) :=
        wifiTryModal_shows.mpr ⟨index, rfl, iff_of_false Bool.false_ne_true hIndex⟩
      exact ⟨false, question index, [], (List.append_nil _).symm, hAsk, rfl, rfl⟩
    · have hAsk : wifiTryModal.Shows seen (question (some 0)) (.ok true) :=
        wifiTryModal_shows.mpr ⟨some 0, rfl, iff_of_true rfl rfl⟩
      refine ⟨true, question (some 0), es', rfl, hAsk, ?_⟩
      rw [if_pos rfl, onOk_shows]
      exact ⟨connected, es', [], (List.append_nil _).symm, tryConnect_shows.mpr hMade, rfl, rfl⟩

-- ---------------------------------------------------------------------------
-- The loop
-- ---------------------------------------------------------------------------

/-- How a loop of `n` tries ends after some that failed: it goes on, or the last
try has a result. -/
def Ended (n failed : Nat) (last : List Event) : Option Bool → Prop
  | none => failed = n ∧ last = []
  | some connected => failed < n ∧ Tried last (some connected)

/-- The tries before the last have failed; the last has ended the loop, or there
was none left. -/
theorem wifiLoop_shows {n : Nat} {es : List Event} {r : Option Bool} :
    (wifiLoop n).Shows seen es (.ok r) ↔
      ∃ (failed : List (List Event)) (last : List Event), (∀ t ∈ failed, Tried t none) ∧
        Ended n failed.length last r ∧ es = failed.flatten ++ last := by
  -- Try by try.
  induction n generalizing es with
  | zero =>
    rw [wifiLoop, Prog.shows_done]
    constructor
    · rintro ⟨rfl, hEnd⟩
      rw [Except.ok.inj hEnd]
      exact ⟨[], [], List.forall_mem_nil _, ⟨rfl, rfl⟩, rfl⟩
    · rintro ⟨failed, last, -, hEnded, rfl⟩
      rcases r with _ | connected
      · obtain ⟨hLen, rfl⟩ := hEnded
        rw [List.length_eq_zero_iff.mp hLen]
        exact ⟨rfl, rfl⟩
      · exact absurd hEnded.1 (Nat.not_lt_zero _)
  | succ n ih =>
    rw [wifiLoop, onOk_shows]
    constructor
    · rintro ⟨r₁, es₁, es₂, rfl, hTry, hRest⟩
      rw [wifiTry_shows] at hTry
      rcases r₁ with _ | connected
      · obtain ⟨failed, last, hFailed, hEnded, rfl⟩ := ih.mp hRest
        refine ⟨es₁ :: failed, last, List.forall_mem_cons.mpr ⟨hTry, hFailed⟩, ?_,
          (List.append_assoc ..).symm⟩
        rcases r with _ | connected
        · exact ⟨congrArg Nat.succ hEnded.1, hEnded.2⟩
        · exact ⟨Nat.succ_lt_succ hEnded.1, hEnded.2⟩
      · obtain ⟨rfl, hEnd⟩ := hRest
        rw [Except.ok.inj hEnd, List.append_nil]
        exact ⟨[], es₁, List.forall_mem_nil _, ⟨Nat.succ_pos n, hTry⟩, rfl⟩
    · rintro ⟨failed, last, hFailed, hEnded, rfl⟩
      rcases failed with _ | ⟨t, failed⟩
      · rcases r with _ | connected
        · cases hEnded.1
        · exact ⟨some connected, last, [], (List.append_nil _).symm, wifiTry_shows.mpr hEnded.2,
            rfl, rfl⟩
      · obtain ⟨hTry, hLater⟩ := List.forall_mem_cons.mp hFailed
        refine ⟨none, t, failed.flatten ++ last, List.append_assoc _ _ _, wifiTry_shows.mpr hTry,
          ih.mpr ⟨failed, last, hLater, ?_, rfl⟩⟩
        rcases r with _ | connected
        · exact ⟨Nat.succ.inj hEnded.1, hEnded.2⟩
        · exact ⟨Nat.lt_of_succ_lt_succ hEnded.1, hEnded.2⟩

-- ---------------------------------------------------------------------------
-- The progress bar
-- ---------------------------------------------------------------------------

/-- Whether the progress bar is shown, of acts that succeed. -/
def bar (shown : Bool) (e : Event) : Bool :=
  match e.1 with
  | .act (.startProgress _ _ _ _) => true
  | .act .finishProgress => false
  | _ => shown

def start : Event := did (.startProgress "Connecting ..." 0 10 0)

/-- No event of the list is about the bar. -/
def Quiet (es : List Event) : Prop := ∀ e ∈ es, ∀ shown, bar shown e = shown

/-- Quiet events leave the progress bar. -/
theorem Quiet.foldl {es : List Event} (h : Quiet es) (shown : Bool) :
    es.foldl bar shown = shown := by
  induction es with
  | nil => rfl
  | cons e es ih =>
    obtain ⟨hHere, hLater⟩ := List.forall_mem_cons.mp h
    rw [List.foldl_cons, hHere, ih hLater]

/-- A start is not quiet. -/
theorem Quiet.not_mem_start {es : List Event} (h : Quiet es) : start ∉ es := by
  intro hMem
  have hShown : true = false := h start hMem false
  cases hShown

/-- A question leaves the bar, and tells of no state. -/
theorem question_quiet (index : Option Nat) :
    Quiet (question index) ∧ told (some .bound) ∉ question index := by
  constructor
  · intro e hMem shown
    simp only [question, List.mem_cons, List.not_mem_nil, or_false] at hMem
    rcases hMem with rfl | rfl | rfl | rfl <;> rfl
  · intro hMem
    simp only [question, List.mem_cons, List.not_mem_nil, or_false] at hMem
    rcases hMem with h | h | h | h <;> cases congrArg Sigma.fst h

/-- The seconds of watching leave the bar, and have told of a bound state only
if there was one. -/
theorem seconds_quiet (waits : List Nat) (confs : List (Option DhcpState)) :
    Quiet (seconds waits confs) ∧
      (told (some .bound) ∈ seconds waits confs → some .bound ∈ confs) := by
  induction confs generalizing waits with
  | nil =>
    rw [seconds, List.zipWith_nil_right]
    exact ⟨List.forall_mem_nil _, fun hMem => absurd hMem List.not_mem_nil⟩
  | cons conf confs ih =>
    rcases waits with _ | ⟨wait, waits⟩
    · exact ⟨List.forall_mem_nil _, fun hMem => absurd hMem List.not_mem_nil⟩
    obtain ⟨hQuiet, hBound⟩ := ih waits
    have hSplit : seconds (wait :: waits) (conf :: confs) =
        second wait conf ++ seconds waits confs := rfl
    rw [hSplit]
    constructor
    · refine List.forall_mem_append.mpr ⟨fun e hMem shown => ?_, hQuiet⟩
      simp only [second, List.mem_cons, List.not_mem_nil, or_false] at hMem
      rcases hMem with rfl | rfl | rfl <;> rfl
    · intro hMem
      rcases List.mem_append.mp hMem with hMem | hMem
      · simp only [second, List.mem_cons, List.not_mem_nil, or_false] at hMem
        rcases hMem with h | h | h
        · cases congrArg Sigma.fst h
        · cases congrArg Sigma.fst h
        · rw [eq_of_heq (Sigma.mk.inj h).2]
          exact List.mem_cons_self
      · exact List.mem_cons_of_mem _ (hBound hMem)

/-- The state that was bound has been told. -/
theorem told_mem_seconds {waits : List Nat} {confs : List (Option DhcpState)}
    (hLen : confs.length < waits.length) (conf : Option DhcpState) :
    told conf ∈ seconds waits (confs ++ [conf]) := by
  induction confs generalizing waits with
  | nil =>
    obtain ⟨wait, waits, rfl⟩ := List.exists_cons_of_length_pos hLen
    rw [List.nil_append, seconds_one]
    exact .tail _ (.tail _ (.head _))
  | cons conf' confs ih =>
    rcases waits with _ | ⟨wait, waits⟩
    · exact absurd hLen (Nat.not_lt_zero _)
    · have hRest := ih (Nat.lt_of_succ_lt_succ hLen)
      exact List.mem_append_right (second wait conf') hRest

theorem started_bar (shown : Bool) : started.foldl bar shown = true := rfl

theorem start_mem_started : start ∈ started := .tail _ (.head _)

theorem told_not_mem_started (conf : Option DhcpState) : told conf ∉ started := by
  intro hMem
  simp only [started, List.mem_cons, List.not_mem_nil, or_false] at hMem
  rcases hMem with h | h | h <;> cases congrArg Sigma.fst h

/-- The bar is left over unless the radio is bound. -/
theorem made_bar {es : List Event} {connected : Bool} (h : Made es connected) :
    (∀ shown, es.foldl bar shown = !connected) ∧ start ∈ es ∧
      (told (some .bound) ∈ es ↔ connected = true) := by
  obtain ⟨confs, es', hUnbound, hWatched, rfl⟩ := h
  refine ⟨fun shown => ?_, List.mem_append_left _ start_mem_started, ?_⟩
  · rw [List.foldl_append, started_bar]
    -- The bar is taken away when the state is bound, and else it stays.
    cases connected with
    | true =>
      obtain ⟨-, rfl⟩ := hWatched
      rw [List.foldl_append]
      rfl
    | false =>
      obtain ⟨-, rfl⟩ := hWatched
      exact (seconds_quiet _ _).1.foldl true
  · rw [List.mem_append, or_iff_right (told_not_mem_started _)]
    cases connected with
    | true =>
      obtain ⟨hLen, rfl⟩ := hWatched
      exact iff_of_true (List.mem_append_left _ (told_mem_seconds hLen _)) rfl
    | false =>
      obtain ⟨-, rfl⟩ := hWatched
      exact iff_of_false (fun hMem => hUnbound _ ((seconds_quiet _ _).2 hMem) rfl)
        Bool.false_ne_true

/-- The bar after a try with this result. -/
def barAfter (shown : Bool) : Option Bool → Bool
  | some true => false
  | some false => shown
  | none => true

/-- What a try with this result leaves of the bar, shows and is told. -/
theorem tried_bar {es : List Event} {r : Option Bool} (h : Tried es r) :
    (∀ shown, es.foldl bar shown = barAfter shown r) ∧ (start ∈ es ↔ r ≠ some false) ∧
      (told (some .bound) ∈ es ↔ r = some true) := by
  -- Declined, or connecting.
  rcases h with ⟨index, -, rfl, rfl⟩ | ⟨es', connected, hMade, rfl, rfl⟩
  · obtain ⟨hQuiet, hBound⟩ := question_quiet index
    exact ⟨hQuiet.foldl, iff_of_false hQuiet.not_mem_start fun h => h rfl,
      iff_of_false hBound fun h => Bool.false_ne_true (Option.some.inj h)⟩
  · obtain ⟨hQuiet, hBound⟩ := question_quiet (some 0)
    obtain ⟨hBar, hStart, hTold⟩ := made_bar hMade
    have hMem : start ∈ question (some 0) ++ es' := List.mem_append_right _ hStart
    have hBound : told (some .bound) ∈ question (some 0) ++ es' ↔ connected = true := by
      rw [List.mem_append, or_iff_right hBound, hTold]
    rw [hBound]
    simp only [List.foldl_append, hQuiet.foldl, hBar]
    cases connected with
    | true =>
      have hOther : some true ≠ some false := by decide
      exact ⟨fun _ => rfl, iff_of_true hMem hOther, iff_of_true rfl rfl⟩
    | false =>
      have hOther : (none : Option Bool) ≠ some false := by decide
      exact ⟨fun _ => rfl, iff_of_true hMem hOther,
        iff_of_false Bool.false_ne_true (Option.some_ne_none true).symm⟩

/-- Tries that have failed leave the bar, if there are any. -/
theorem failed_bar {failed : List (List Event)} (h : ∀ t ∈ failed, Tried t none) :
    (∀ shown, failed.flatten.foldl bar shown = (shown || !failed.isEmpty)) ∧
      (start ∈ failed.flatten ↔ failed ≠ []) ∧ told (some .bound) ∉ failed.flatten := by
  induction failed with
  | nil => exact ⟨fun shown => (Bool.or_false shown).symm, by simp, by simp⟩
  | cons t failed ih =>
    obtain ⟨hHere, hLater⟩ := List.forall_mem_cons.mp h
    obtain ⟨hBar, hStart, hTold⟩ := tried_bar hHere
    obtain ⟨hBars, -, hTolds⟩ := ih hLater
    refine ⟨fun shown => ?_, iff_of_true ?_ (List.cons_ne_nil t failed), ?_⟩
    · rw [List.flatten_cons, List.foldl_append, hBar, hBars]
      exact (Bool.or_true shown).symm
    · exact List.mem_append_left _ (hStart.mpr (Option.some_ne_none false).symm)
    · rw [List.flatten_cons, List.mem_append, not_or]
      exact ⟨fun hMem => Option.some_ne_none true (hTold.mp hMem).symm, hTolds⟩

-- ---------------------------------------------------------------------------
-- All runs
-- ---------------------------------------------------------------------------

/-- There is a network already, or the user is asked. -/
def Runs (n : Nat) (es : List Event) (r : Option Bool) : Prop :=
  (es = [told (some .bound)] ∧ r = some true) ∨
    ∃ (conf : Option DhcpState) (failed : List (List Event)) (last : List Event),
      conf ≠ some .bound ∧ (∀ t ∈ failed, Tried t none) ∧ Ended n failed.length last r ∧
        es = told conf :: (failed.flatten ++ last)

/-- The whole is one look at the state and, if it is not bound, the tries. -/
theorem wifi_shows {n : Nat} {es : List Event} {r : Option Bool} :
    (wifi false n).Shows seen es (.ok r) ↔ Runs n es r := by
  rw [wifi, if_neg Bool.false_ne_true, Prog.shows_call]
  constructor
  · rintro ⟨conf, es', rfl, hRest⟩
    by_cases hBound : conf = some .bound
    · rw [if_pos hBound] at hRest
      obtain ⟨rfl, hEnd⟩ := hRest
      rw [Except.ok.inj hEnd, hBound]
      exact .inl ⟨rfl, rfl⟩
    · rw [if_neg hBound, wifiLoop_shows] at hRest
      obtain ⟨failed, last, hFailed, hEnded, rfl⟩ := hRest
      exact .inr ⟨conf, failed, last, hBound, hFailed, hEnded, rfl⟩
  · rintro (⟨rfl, rfl⟩ | ⟨conf, failed, last, hBound, hFailed, hEnded, rfl⟩)
    · exact ⟨some .bound, [], rfl, rfl, rfl⟩
    · refine ⟨conf, _, rfl, ?_⟩
      rw [if_neg hBound, wifiLoop_shows]
      exact ⟨failed, last, hFailed, hEnded, rfl⟩

/-- **Connecting to the network.** The runs of `wifi`: the tries that fail, and
the one that has a result. It says there is a network exactly if it has been told
so; and the progress bar is left over exactly if it has been started and `wifi`
does not say so. -/
theorem wifi_runs (n : Nat) (es : List Event) (r : Option Bool) :
    ((wifi false n).Shows seen es (.ok r) ↔ Runs n es r) ∧
    ((wifi false n).Shows seen es (.ok r) →
      (r = some true ↔ told (some .bound) ∈ es) ∧
      (es.foldl bar false = true ↔ start ∈ es ∧ r ≠ some true)) := by
  refine ⟨wifi_shows, fun hShows => ?_⟩
  rcases wifi_shows.mp hShows with ⟨rfl, rfl⟩ |
    ⟨conf, failed, last, hBound, hFailed, hEnded, rfl⟩
  · have hStart : start ∉ [told (some .bound)] := by
      rw [List.mem_singleton]
      intro h
      cases congrArg Sigma.fst h
    exact ⟨iff_of_true rfl (List.mem_singleton.mpr rfl),
      iff_of_false Bool.false_ne_true fun h => hStart h.1⟩
  · obtain ⟨hBars, hStarts, hTolds⟩ := failed_bar hFailed
    have hConf : told (some .bound) ≠ told conf := by
      intro h
      exact hBound (eq_of_heq (Sigma.mk.inj h).2).symm
    have hFirst : start ≠ told conf := by
      intro h
      cases congrArg Sigma.fst h
    have hFold : (told conf :: (failed.flatten ++ last)).foldl bar false =
        last.foldl bar !failed.isEmpty := by
      rw [List.foldl_cons, List.foldl_append]
      show last.foldl bar (failed.flatten.foldl bar false) = _
      rw [hBars, Bool.false_or]
    have hLeft : (!failed.isEmpty) = true ↔ failed ≠ [] := by
      cases failed <;> simp
    rw [hFold, List.mem_cons, or_iff_right hConf, List.mem_cons, or_iff_right hFirst,
      List.mem_append, or_iff_right hTolds, List.mem_append, hStarts]
    -- No try left, or a last try with a result.
    rcases r with _ | connected
    · obtain ⟨-, rfl⟩ := hEnded
      rw [List.foldl_nil, hLeft]
      exact ⟨iff_of_false (Option.some_ne_none true).symm List.not_mem_nil,
        fun h => ⟨.inl h, (Option.some_ne_none true).symm⟩,
        fun h => h.1.resolve_right List.not_mem_nil⟩
    · obtain ⟨hBar, hStart, hTold⟩ := tried_bar hEnded.2
      rw [hBar, hStart, hTold]
      cases connected with
      | true => exact ⟨Iff.rfl, iff_of_false Bool.false_ne_true fun h => h.2 rfl⟩
      | false =>
        have hOther : some false ≠ some true := by decide
        refine ⟨Iff.rfl, ?_⟩
        show (!failed.isEmpty) = true ↔ _
        rw [hLeft]
        exact ⟨fun h => ⟨.inl h, hOther⟩, fun h => h.1.resolve_right fun hNot => hNot rfl⟩

end Sigchat.Results.Wifi
