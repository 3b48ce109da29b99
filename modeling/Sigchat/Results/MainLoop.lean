import Sigchat.Model.Process
import Sigchat.Results.LoadedManager
import Sigchat.Results.ReceiveStart
import Sigchat.Results.SyncTranscript

/-!
# The main loop

Whatever the receive worker and PDDB do between its requests, the process is a
run of the abstract loop `Main`, and its variables tell what the loop has done:
there is no worker, or the one that the loaded manager's account starts.

* `handle_shows`       — what one message can do, and what it shows in the chat;
* `rounds_shows`       — the same of the messages of a run;
* `wrappedMain_refines` — the process: its posts, its rounds and its worker.
-/

namespace Sigchat.Results.MainLoop

open Sigchat.Lib
open Sigchat.Pddb
open Sigchat.Signal
open Sigchat.Accounts
open Sigchat.App
open Sigchat.MainWs (AppReq AppResp appServe onPddb Post)
open Sigchat.Process

variable {U : UrlCrate} {L : Libsignal} {P : Protocol L}

-- ---------------------------------------------------------------------------
-- The chat
-- ---------------------------------------------------------------------------

/-- What a request adds to the chat. -/
def chat : (r : AppReq) → AppResp r → List Post
  | .postAdd author ts body, _ => [⟨author, ts, body⟩]
  | _, _ => []

/-- The post that a message of the chat server asks for. -/
def posted (m : Message U P) : List Post :=
  match SigchatOp.fromUsize m.id, m.text with
  | some .post, some text => if text = "" then [] else [⟨"me", m.ts, text⟩]
  | _, _ => []

/-- Storage programs add nothing. -/
theorem onPddb_shows {α : Type} {p : Prog Resp α} {es : List Post} {a : α}
    (h : (onPddb p).Shows chat es a) : es = [] := by
  refine Prog.Shows.eq_nil (P := IsStorage) ?_ (all_onPddb p) h
  rintro r ⟨q, rfl⟩ x
  rfl

/-- A post shows under the user's own name, whatever becomes of its delivery. -/
theorem post_shows {text : String} {ts : UInt64} {now : Nat} {rng : P.Rng} {es : List Post}
    {u : Unit} (h : (App.post P text ts now rng).Shows chat es u) : es = [⟨"me", ts, text⟩] := by
  obtain ⟨x, es', rfl, y, es'', rfl, hRest⟩ := h
  obtain ⟨r, es₁, es₂, rfl, hRecipient, hEncrypt⟩ := Prog.shows_bind.mp hRest
  have hFirst := onPddb_shows hRecipient
  rcases r with e | recipient
  · rw [hFirst, hEncrypt.1]
    rfl
  · obtain ⟨r', es₃, es₄, rfl, hBuild, hDone⟩ := Prog.shows_bind.mp hEncrypt
    rw [hFirst, onPddb_shows hBuild, hDone.1]
    rfl

-- ---------------------------------------------------------------------------
-- Connecting
-- ---------------------------------------------------------------------------

/-- What trying to connect leaves. -/
inductive Tried (v : Process.Visit U L) (l : Loop U) (firstFocus : Bool) : Option (Loop U) → Prop
  | ended : Tried v l firstFocus none
  | failed (c : SigChat U) : Tried v l firstFocus (some { l with sigchat := c })
  | started {c : SigChat U} {args : WorkerArgs}
      (hStart : startReceive v.thread c = .ok (some args)) :
      Tried v l firstFocus (some ⟨c, firstFocus, l.workers ++ [args]⟩)
  | lost (c : SigChat U) : Tried v l firstFocus (some ⟨c, firstFocus, l.workers⟩)

/-- A connect shows nothing in the chat and ends in one of four ways. -/
theorem tryConnect_shows {v : Process.Visit U L} {l : Loop U} {firstFocus : Bool} {es : List Post}
    {r : Option (Loop U)} (h : (tryConnect v l firstFocus).Shows chat es r) :
    es = [] ∧ Tried v l firstFocus r := by
  obtain ⟨a, es₁, es₂, rfl, hConnect, hRest⟩ := Prog.shows_bind.mp h
  have hFirst := onPddb_shows hConnect
  rcases a with p | ⟨e | (_ | _), c⟩
  · obtain ⟨rfl, rfl⟩ := hRest
    exact ⟨by rw [hFirst]; rfl, .ended⟩
  · obtain ⟨rfl, rfl⟩ := hRest
    exact ⟨by rw [hFirst]; rfl, .failed c⟩
  · obtain ⟨rfl, rfl⟩ := hRest
    exact ⟨by rw [hFirst]; rfl, .failed c⟩
  · obtain ⟨rfl, rfl⟩ := hRest
    refine ⟨by rw [hFirst]; rfl, ?_⟩
    unfold connected
    split
    · split
      · exact .started ‹_›
      · exact .lost c
    · exact .ended

-- ---------------------------------------------------------------------------
-- Messages
-- ---------------------------------------------------------------------------

/-- What a message leaves. -/
inductive Handled (m : Message U P) (l : Loop U) : Option (Loop U) → Prop
  | ended : Handled m l none
  | same (hQuit : SigchatOp.fromUsize m.id ≠ some .quit)
      (hText : SigchatOp.fromUsize m.id = some .post → m.text ≠ none)
      (hFocus : SigchatOp.fromUsize m.id = some .event → m.focus = true → l.firstFocus = false) :
      Handled m l (some l)
  | tried {r : Option (Loop U)} (hOp : SigchatOp.fromUsize m.id = some .event)
      (hFocus : m.focus = true) (hFlag : l.firstFocus = true) (hTried : Tried m.visit l false r) :
      Handled m l r

/-- The first focus tries to connect; a later one only redraws. -/
theorem onFocus_shows {v : Process.Visit U L} {l : Loop U} {es : List Post} {r : Option (Loop U)}
    (h : (Process.onFocus v l).Shows chat es r) :
    es = [] ∧ (if l.firstFocus then Tried v l false r else r = some l) := by
  obtain ⟨next, es₁, es₂, rfl, hNext, hRest⟩ := Prog.shows_bind.mp h
  have hRedraw : es₂ = [] ∧ r = next := by
    cases next with
    | none => exact hRest
    | some l' =>
      obtain ⟨x, es', rfl, rfl, hEq⟩ := hRest
      exact ⟨rfl, hEq⟩
  obtain ⟨rfl, rfl⟩ := hRedraw
  rw [List.append_nil]
  split at hNext
  · rw [if_pos ‹_›]
    exact tryConnect_shows hNext
  · rw [if_neg ‹_›]
    exact hNext

/-- **One message.** -/
theorem handle_shows {m : Message U P} {l : Loop U} {es : List Post} {r : Option (Loop U)}
    (h : (Process.handle m l).Shows chat es r) : es = posted m ∧ Handled m l r := by
  unfold Process.handle at h
  unfold posted
  -- One case per opcode; a message that is not understood changes nothing.
  split at h
  case h_1 hOp =>
    rw [hOp]
    split at h
    · rename_i hFocus
      obtain ⟨rfl, hNext⟩ := onFocus_shows h
      refine ⟨rfl, ?_⟩
      split at hNext
      · exact .tried hOp hFocus ‹_› hNext
      · rw [hNext]
        exact .same (by rw [hOp]; nofun) (by rw [hOp]; nofun)
          fun _ _ => Bool.eq_false_of_not_eq_true ‹_›
    · rename_i hFocus
      obtain ⟨rfl, rfl⟩ := h
      exact ⟨rfl, .same (by rw [hOp]; nofun) (by rw [hOp]; nofun)
        fun _ hSet => absurd hSet hFocus⟩
  case h_2 hOp =>
    rw [hOp]
    split at h
    · rename_i hText
      obtain ⟨rfl, rfl⟩ := h
      rw [hText]
      exact ⟨rfl, .ended⟩
    · rename_i text hText
      have hSame : Handled m l (some l) :=
        .same (by rw [hOp]; nofun) (by rw [hText]; nofun) (by rw [hOp]; nofun)
      rw [hText]
      split at h
      · obtain ⟨rfl, rfl⟩ := h
        exact ⟨(if_pos ‹_›).symm, hSame⟩
      · obtain ⟨u, es₁, es₂, rfl, hPost, rfl, rfl⟩ := Prog.shows_bind.mp h
        rw [post_shows hPost, List.append_nil]
        exact ⟨(if_neg ‹_›).symm, hSame⟩
  case h_3 hOp =>
    obtain ⟨rfl, rfl⟩ := h
    rw [hOp]
    exact ⟨rfl, .ended⟩
  all_goals
    rename_i hOp
    obtain ⟨rfl, rfl⟩ := h
    rw [hOp]
    exact ⟨rfl, .same (by rw [hOp]; nofun) (by rw [hOp]; nofun) (by rw [hOp]; nofun)⟩

/-- What there is before the loop. -/
inductive Booted (v : Process.Visit U L) : Option (Loop U) → Prop
  | ended : Booted v none
  | idle {c : SigChat U} (hReady : c.isReady = false) : Booted v (some ⟨c, true, []⟩)
  | tried {c : SigChat U} {r : Option (Loop U)} (hReady : c.isReady = true)
      (hTried : Tried v ⟨c, false, []⟩ false r) : Booted v r

/-- Starting up shows nothing in the chat, and connects if the account is ready.
-/
theorem boot_shows {v : Process.Visit U L} {es : List Post} {r : Option (Loop U)}
    (h : (boot v).Shows chat es r) : es = [] ∧ Booted v r := by
  obtain ⟨a, es₁, es₂, rfl, hNew, hRest⟩ := Prog.shows_bind.mp h
  rw [onPddb_shows hNew, List.nil_append]
  rcases a with p | c
  · obtain ⟨rfl, rfl⟩ := hRest
    exact ⟨rfl, .ended⟩
  · dsimp only at hRest
    split at hRest
    · obtain ⟨rfl, hTried⟩ := tryConnect_shows hRest
      exact ⟨rfl, .tried ‹_› hTried⟩
    · obtain ⟨rfl, rfl⟩ := hRest
      exact ⟨rfl, .idle (Bool.eq_false_of_not_eq_true ‹_›)⟩

-- ---------------------------------------------------------------------------
-- The worker
-- ---------------------------------------------------------------------------

/-- The worker of an account. -/
def workerOf (a : Account U) : Option WorkerArgs := do
  let aci ← a.aciServiceId
  let password ← a.password
  return ⟨aci, a.deviceId, password, a.chatHost⟩

/-- A worker that is started belongs to the manager that is loaded. -/
theorem workerOf_of_startReceive {thread : Except IoError Unit} {c : SigChat U} {args : WorkerArgs}
    (h : startReceive thread c = .ok (some args)) :
    ∃ m, c.manager = some m ∧ workerOf m.account = some args := by
  unfold startReceive at h
  split at h
  · rename_i m hManager
    refine ⟨m, hManager, ?_⟩
    unfold managerStartReceive at h
    split at h
    · cases h
    · rename_i args' hStart
      obtain rfl := Option.some.inj (Except.ok.inj h)
      split at hStart
      · cases hStart
      · rename_i aci hAci
        split at hStart
        · cases hStart
        · rename_i password hPassword
          split at hStart
          · cases hStart
          · rename_i args'' hSpawn
            obtain rfl := Except.ok.inj hStart
            unfold spawn at hSpawn
            split at hSpawn
            · cases hSpawn
            · rw [workerOf, hAci, hPassword]
              exact congrArg some (Except.ok.inj hSpawn)
  · cases h

/-- No worker has been started, or the one of the manager's account, after which
the flag is cleared. -/
def Owns (l : Loop U) : Prop :=
  l.workers = [] ∨ l.firstFocus = false ∧
    ∃ m args, l.sigchat.manager = some m ∧ workerOf m.account = some args ∧ l.workers = [args]

/-- After a connect there is no worker, or the one of the loaded manager. -/
theorem owns_of_tried {v : Process.Visit U L} {l l' : Loop U}
    (hNone : l.workers = []) (h : Tried v l false (some l')) : Owns l' := by
  cases h with
  | failed c => exact .inl hNone
  | started hStart =>
    obtain ⟨m, hManager, hArgs⟩ := workerOf_of_startReceive hStart
    exact .inr ⟨rfl, m, _, hManager, hArgs, by rw [hNone]; rfl⟩
  | lost c => exact .inl hNone

/-- **One message** keeps the worker. -/
theorem owns_of_handled {m : Message U P} {l l' : Loop U} (hOwns : Owns l)
    (h : Handled m l (some l')) : Owns l' := by
  cases h with
  | same => exact hOwns
  | tried hOp hFocus hFlag hTried =>
    rcases hOwns with hNone | ⟨hCleared, -⟩
    · exact owns_of_tried hNone hTried
    · exact absurd (hFlag.symm.trans hCleared) Bool.true_eq_false_eq_False

/-- After the start there is no worker, or the one of the loaded manager. -/
theorem owns_of_booted {v : Process.Visit U L} {l : Loop U} (h : Booted v (some l)) : Owns l := by
  cases h with
  | idle => exact .inl rfl
  | tried hReady hTried => exact owns_of_tried rfl hTried

-- ---------------------------------------------------------------------------
-- Refinement
-- ---------------------------------------------------------------------------

/-- What the abstract loop knows of the state. -/
def Refines (l : Loop U) (s : Main) : Prop :=
  s.firstFocus = l.firstFocus ∧ s.workers = l.workers.length

/-- A message as the abstract loop gets it. -/
def received (m : Message U P) (v : App.Visit) : Received := ⟨m.id, m.focus, m.text.isSome, v⟩

/-- Trying to connect, in the abstract loop. -/
theorem tried_refines {v : Process.Visit U L} {l l' : Loop U} {s : Main} (hRefines : Refines l s)
    (h : Tried v l false (some l')) : ∃ v' : App.Visit,
      (v'.connect ≠ .ok true ∧ Refines l' s) ∨
      (v'.connect = .ok true ∧ (({ s with firstFocus := false }).connected v').2 = true ∧
        Refines l' (({ s with firstFocus := false }).connected v').1) := by
  obtain ⟨hFlag, hWorkers⟩ := hRefines
  cases h with
  | failed c => exact ⟨⟨.ok false, true, .ok false⟩, .inl ⟨nofun, hFlag, hWorkers⟩⟩
  | started hStart =>
    refine ⟨⟨.ok true, true, .ok true⟩, .inr ⟨rfl, rfl, rfl, ?_⟩⟩
    rw [List.length_append]
    exact congrArg (· + 1) hWorkers
  | lost c => exact ⟨⟨.ok true, true, .ok false⟩, .inr ⟨rfl, rfl, rfl, hWorkers⟩⟩

theorem next_of_handle {r : Received} {s : Main} (h : (s.handle r).2 = true) :
    Main.next r s = some (s.handle r).1 := if_pos h

/-- A message that changes nothing. -/
theorem handle_same {m : Message U P} {l : Loop U} {s : Main} (hFlag : s.firstFocus = l.firstFocus)
    (hQuit : SigchatOp.fromUsize m.id ≠ some .quit)
    (hText : SigchatOp.fromUsize m.id = some .post → m.text ≠ none)
    (hFocus : SigchatOp.fromUsize m.id = some .event → m.focus = true → l.firstFocus = false)
    (v : App.Visit) : s.handle (received m v) = (s, true) := by
  have hId : SigchatOp.fromUsize (received m v).id = SigchatOp.fromUsize m.id := rfl
  unfold Main.handle
  rw [hId]
  rcases hOp : SigchatOp.fromUsize m.id with _ | op
  · rfl
  -- Only a focus event, a post without a text and a quit do something.
  · cases op with
    | event =>
      dsimp only
      split
      · rw [Main.onFocus, hFlag, hFocus hOp ‹_›]
        rfl
      · rfl
    | post => exact congrArg (s, ·) (Option.isSome_iff_ne_none.mpr (hText hOp))
    | quit => exact absurd hOp hQuit
    | menu => rfl
    | rawkeys => rfl

/-- **One message** is a round of the abstract loop. -/
theorem handled_refines {m : Message U P} {l l' : Loop U} {s : Main} (hRefines : Refines l s)
    (h : Handled m l (some l')) :
    ∃ v s', Main.next (received m v) s = some s' ∧ Refines l' s' := by
  -- The simple model leaves the outcomes of a connect open, so a visit with the same
  -- outcomes exists.
  cases h with
  | same hQuit hText hFocus =>
    have hSame := handle_same hRefines.1 hQuit hText hFocus ⟨.ok false, true, .ok false⟩
    refine ⟨⟨.ok false, true, .ok false⟩, s, ?_, hRefines⟩
    rw [next_of_handle (by rw [hSame]), hSame]
  | tried hOp hFocus hFlag hTried =>
    have hCounted : Refines l { s with connects := s.connects + 1 } := hRefines
    obtain ⟨v, hCases⟩ := tried_refines hCounted hTried
    have hHandle : s.handle (received m v) = s.onFocus v := by
      rw [Main.handle, show SigchatOp.fromUsize (received m v).id = _ from hOp]
      exact if_pos hFocus
    rw [Main.onFocus, if_pos (hRefines.1.trans hFlag)] at hHandle
    rcases hCases with ⟨hConnect, hNext⟩ | ⟨hConnect, hOn, hNext⟩
    · have hFailed : s.handle (received m v) = ({ s with connects := s.connects + 1 }, true) := by
        rw [hHandle]
        dsimp only
        split
        · exact absurd ‹_› hConnect
        · rfl
      exact ⟨v, _, by rw [next_of_handle (by rw [hFailed]), hFailed], hNext⟩
    · have hStarted : s.handle (received m v) =
          ({ s with connects := s.connects + 1, firstFocus := false } : Main).connected v := by
        rw [hHandle, hConnect]
      exact ⟨v, _, next_of_handle (by rw [hStarted]; exact hOn), by rw [hStarted]; exact hNext⟩

/-- Before the loop. -/
theorem booted_refines {v : Process.Visit U L} {l : Loop U} (h : Booted v (some l)) :
    ∃ isReady v', (Main.autoConnect isReady v').2 = true ∧
      Refines l (Main.autoConnect isReady v').1 := by
  -- The same for the connect at the start, which comes before the first message.
  cases h with
  | idle => exact ⟨false, ⟨.ok false, true, .ok false⟩, rfl, rfl, rfl⟩
  | tried hReady hTried =>
    have hRefines {c : SigChat U} : Refines (⟨c, false, []⟩ : Loop U) ⟨false, 1, 0⟩ := ⟨rfl, rfl⟩
    obtain ⟨v', hCases⟩ := tried_refines hRefines hTried
    refine ⟨true, v', ?_⟩
    rcases hCases with ⟨hConnect, hNext⟩ | ⟨hConnect, hOn, hNext⟩
    · have hFailed : Main.autoConnect true v' = (⟨false, 1, 0⟩, true) := by
        unfold Main.autoConnect
        rw [if_pos rfl]
        dsimp only
        split
        · exact absurd ‹_› hConnect
        · rfl
      rw [hFailed]
      exact ⟨rfl, hNext⟩
    · have hStarted : Main.autoConnect true v' = (⟨false, 1, 0⟩ : Main).connected v' := by
        unfold Main.autoConnect
        rw [if_pos rfl, hConnect]
      rw [hStarted]
      exact ⟨hOn, hNext⟩

-- ---------------------------------------------------------------------------
-- Runs
-- ---------------------------------------------------------------------------

/-- The messages as the abstract loop gets them. -/
def SameMessages (ms : List (Message U P)) (rs : List Received) : Prop :=
  List.Forall₂ (fun m r => ∃ v, r = received m v) ms rs

theorem rounds_none (ms : List (Message U P)) : rounds ms none = .done none := by
  cases ms <;> rfl

theorem rounds_cons (m : Message U P) (ms : List (Message U P)) (l : Loop U) :
    rounds (m :: ms) (some l) = (Process.handle m l >>= rounds ms) := rfl

/-- **The messages of a run**: what they show, and what they leave. -/
theorem rounds_shows {ms : List (Message U P)} {l : Loop U} {es : List Post} {r : Option (Loop U)}
    (h : (rounds ms (some l)).Shows chat es r) :
    (∃ before, before <+: ms ∧ es = before.flatMap posted) ∧
      ∀ l', r = some l' → es = ms.flatMap posted ∧ (Owns l → Owns l') ∧
        ∀ s, Refines l s → ∃ rs s', SameMessages ms rs ∧ reach Main.next rs s = some s' ∧
          Refines l' s' := by
  -- Message after message; the posts shown are those of the messages handled so far.
  induction ms generalizing l es with
  | nil =>
    obtain ⟨rfl, rfl⟩ := h
    refine ⟨⟨[], List.nil_prefix, rfl⟩, fun l' hl' => ⟨rfl, fun hOwns => ?_, fun s hs => ?_⟩⟩
    · exact Option.some.inj hl' ▸ hOwns
    · exact ⟨[], s, .nil, rfl, Option.some.inj hl' ▸ hs⟩
  | cons m ms ih =>
    rw [rounds_cons] at h
    obtain ⟨next, es₁, es₂, rfl, hFirst, hRest⟩ := Prog.shows_bind.mp h
    obtain ⟨rfl, hHandled⟩ := handle_shows hFirst
    cases next with
    -- The message that ends the loop is the last whose posts are shown.
    | none =>
      rw [rounds_none] at hRest
      obtain ⟨rfl, rfl⟩ := hRest
      refine ⟨⟨[m], ⟨ms, rfl⟩, ?_⟩, fun l' hl' => by cases hl'⟩
      rw [List.flatMap_singleton, List.append_nil]
    | some l₁ =>
      obtain ⟨⟨before, hPrefix, hEs⟩, hGoes⟩ := ih hRest
      refine ⟨⟨m :: before, List.cons_prefix_cons.mpr ⟨rfl, hPrefix⟩, ?_⟩, fun l' hl' => ?_⟩
      · rw [List.flatMap_cons, hEs]
      · obtain ⟨hAll, hOwns, hRefines⟩ := hGoes l' hl'
        refine ⟨by rw [List.flatMap_cons, hAll], fun h => hOwns (owns_of_handled h hHandled),
          fun s hs => ?_⟩
        obtain ⟨v, s₁, hNext, hs₁⟩ := handled_refines hs hHandled
        obtain ⟨rs, s', hSame, hReach, hs'⟩ := hRefines s₁ hs₁
        exact ⟨received m v :: rs, s', .cons ⟨v, rfl⟩ hSame,
          reach_cons.mpr ⟨s₁, hNext, hReach⟩, hs'⟩

/-- The process shows a post for each text it has come to, in their order. -/
theorem wrappedMain_posts {v : Process.Visit U L} {ms : List (Message U P)} {es : List Post}
    {r : Option (Loop U)} (h : (wrappedMain v ms).Shows chat es r) :
    ∃ before, before <+: ms ∧ es = before.flatMap posted := by
  obtain ⟨next, es₁, es₂, rfl, hBoot, hRest⟩ := Prog.shows_bind.mp h
  obtain ⟨rfl, -⟩ := boot_shows hBoot
  rw [List.nil_append]
  cases next with
  | none =>
    rw [rounds_none] at hRest
    exact ⟨[], List.nil_prefix, hRest.1⟩
  | some l => exact (rounds_shows hRest).1

/-- **The main loop.** Whatever other threads and PDDB do between the requests of
the process: it shows one post in the chat for each message with a text, in
their order, and nothing else; it is a run of the abstract loop over the same
messages; and it has started no worker, or one, with the credentials of the
account of the manager that is loaded. -/
theorem wrappedMain_refines {v : Process.Visit U L} {ms : List (Message U P)} {es : List Post}
    {r : Option (Loop U)} (h : (wrappedMain v ms).Shows chat es r) :
    (∃ before, before <+: ms ∧ es = before.flatMap posted) ∧
      ∀ l, r = some l → es = ms.flatMap posted ∧
        (∃ isReady v' rs s, SameMessages ms rs ∧ Main.after isReady v' rs = some s ∧
          Refines l s) ∧
        l.workers.length ≤ 1 ∧
        ∀ args ∈ l.workers, ∃ m, l.sigchat.manager = some m ∧ workerOf m.account = some args := by
  refine ⟨wrappedMain_posts h, fun l hl => ?_⟩
  obtain ⟨next, es₁, es₂, rfl, hBoot, hRest⟩ := Prog.shows_bind.mp h
  obtain ⟨rfl, hBooted⟩ := boot_shows hBoot
  rw [List.nil_append]
  cases next with
  | none =>
    rw [rounds_none] at hRest
    exact absurd (hl.symm.trans hRest.2) (Option.some_ne_none l)
  | some l₀ =>
    -- The start and each message are steps of the simple model, so what is proved of it
    -- holds here.
    obtain ⟨hAll, hOwns, hRefines⟩ := (rounds_shows hRest).2 l hl
    obtain ⟨isReady, v', hOn, hBegin⟩ := booted_refines hBooted
    obtain ⟨rs, s, hSame, hReach, hs⟩ := hRefines _ hBegin
    have hAfter : Main.after isReady v' rs = some s := (ReceiveStart.after_eq hOn rs).trans hReach
    refine ⟨hAll, ⟨isReady, v', rs, s, hSame, hAfter, hs⟩, ?_, fun args hArgs => ?_⟩
    · exact hs.2 ▸ ReceiveStart.workers_le_one hAfter
    · rcases hOwns (owns_of_booted hBooted) with hNone | ⟨-, m, args', hManager, hOf, hOne⟩
      · rw [hNone] at hArgs
        exact absurd hArgs List.not_mem_nil
      · rw [hOne, List.mem_singleton] at hArgs
        exact ⟨m, hManager, hArgs ▸ hOf⟩

/-- A linked device. -/
def linkedPhone : MainWs.App :=
  { disk := ((fresh.link plainServices "xous" plainMessage).runAll serve .served freshDisk).2
    posts := []
    redraws := 0 }

def online : Process.Visit .plain .plain := ⟨LoadedManager.registering, true, .ok ()⟩

/-- It is started, gets the focus and is given a text. -/
def focusThenPost : List (Message .plain Protocol.plain) :=
  [⟨0, true, none, online, 0, 0, ()⟩, ⟨2, false, some "hi", online, 7, 0, ()⟩]

/-- The theorem for it: the one worker has the credentials that linking has left. -/
theorem wrappedMain_refines_linked :
    ∃ l args, ((wrappedMain online focusThenPost).runAll appServe .served linkedPhone).1 = some l ∧
      l.workers = [args] ∧ ∃ m, l.sigchat.manager = some m ∧ workerOf m.account = some args := by
  have hShows := Prog.shows_run appServe chat (wrappedMain online focusThenPost)
    (fun _ _ => .served) linkedPhone
  have hWorkers : ((wrappedMain online focusThenPost).runAll appServe .served linkedPhone).1.map
      Loop.workers = some [⟨"aci", 2, "secret", "chat.signal.org"⟩] := by decide +kernel
  obtain ⟨l, hRun, hOne⟩ := Option.map_eq_some_iff.mp hWorkers
  obtain ⟨-, hGoes⟩ := wrappedMain_refines hShows
  obtain ⟨-, -, -, hArgs⟩ := hGoes l hRun
  exact ⟨l, _, hRun, hOne, hArgs _ (by rw [hOne]; exact List.mem_singleton_self _)⟩

end Sigchat.Results.MainLoop
