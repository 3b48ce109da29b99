import Sigchat.Lib.BasicAuth
import Sigchat.Results.Durability
import Sigchat.Results.LinkAccepted
import Sigchat.Results.MainLoop

/-!
# The credentials of a linked device

Linking makes up a password and sends it to the server, which answers with a
device id. The receive worker logs in with what is read back from PDDB: the
values have gone through a buffer of 256 bytes and a header whose login ends at
the first colon, and the process may have been started any number of times.

* `accountLink_ok`  — what `account_link` has done when it returns an account;
* `linked_read`     — what a linked device is read as;
* `boot_online`     — what starts on it;
* `worker_logs_in_iff` — when the worker logs in as the device that was linked.
-/

namespace Sigchat.Results.Credentials

open Sigchat.Lib
open Sigchat.Pddb
open Sigchat.Signal
open Sigchat.Stores
open Sigchat.Accounts
open Sigchat.App
open Sigchat.MainWs (appServe onPddb)
open Sigchat.Process
open Sigchat.Results.LinkAccepted (Exchange exchange_of_upload exists_read_of_linked
  textOf_decimal textOf_utf8_eq_iff)
open Sigchat.Results.LoadedManager (account_of_new ends_accountLink manager_new_eq)
open Sigchat.Results.MainLoop (workerOf workerOf_of_startReceive)

variable {U : UrlCrate} {L : Libsignal}

-- ---------------------------------------------------------------------------
-- Storage programs
-- ---------------------------------------------------------------------------

/-- A storage program of the application runs as it does over the disk. -/
theorem runAll_onPddb {α : Type} (p : Prog Resp α) (o : Outcome) (a : MainWs.App) :
    (onPddb p).runAll appServe o a =
      ((p.runAll serve o a.disk).1, { a with disk := (p.runAll serve o a.disk).2 }) := by
  induction p generalizing a with
  | done x => rfl
  | call r k ih => exact ih (serve o r a.disk).1 { a with disk := (serve o r a.disk).2 }

-- ---------------------------------------------------------------------------
-- Linking
-- ---------------------------------------------------------------------------

/-- `Manager::link` answers `Ok(true)` when the account does. -/
theorem managerLink_true {t : Turn U L} {m m' : Manager U} {name : String} {s s' : Disk}
    (h : (m.link t name).runAll serve .served s = (.ok (.ok true, m'), s')) :
    ∃ msg, t.provisioned = .ok msg ∧ ∃ a',
      (m.account.link t.services name msg).runAll serve .served s = (.ok (.ok true, a'), s') := by
  unfold Manager.link at h
  split at h
  · cases (Prod.mk.inj h).1
  · rename_i msg hMsg
    refine ⟨msg, hMsg, ?_⟩
    rw [Prog.runAll_bind] at h
    -- a panic and an error are no success
    rcases hLink : (m.account.link t.services name msg).runAll serve .served s with
      ⟨p | ⟨e | linked, a'⟩, s₁⟩
    · rw [hLink] at h
      cases (Prod.mk.inj h).1
    · rw [hLink] at h
      cases (Prod.mk.inj h).1
    · rw [hLink] at h
      obtain ⟨hResult, rfl⟩ := Prod.mk.inj h
      obtain ⟨hLinked, -⟩ := Prod.mk.inj (Except.ok.inj hResult)
      exact ⟨a', by rw [Except.ok.inj hLinked]⟩

/-- What `Account::new` leaves, all requests being served. -/
def newDisk (config : Config U) (s : Disk) : Disk :=
  stored accountDict (defaults config.host config.serviceEnvironment) s

/-- **What `account_link` has done** when it returns an account: a message has
come, the new account has been linked with it, and it has been read back. -/
theorem accountLink_ok {t : Turn U L} {config : Config U} {s : Disk} {b : Account U}
    (h : ((SigChat.accountLink t config).runAll serve .served s).1 = .ok (.ok b)) :
    ∃ (a : Account U) (m : Manager U) (msg : ProvisionMessage),
      ((Accounts.read accountDict).runAll serve .served (newDisk config s)).1 = .ok (.ok a) ∧
      Manager.new a = .ok m ∧ t.provisioned = .ok msg ∧
      ∃ l, upload t.services a (t.nameModal.getD "xous") msg = .ok l ∧
        ∀ name, ((SigChat.accountLink t config).runAll serve .served s).2 accountDict name =
          stored accountDict (linkValues msg l) (newDisk config s) accountDict name := by
  obtain ⟨s', hRun⟩ : ∃ s', (SigChat.accountLink t config).runAll serve .served s =
      (.ok (.ok b), s') := ⟨_, Prod.ext h rfl⟩
  -- the steps of `account_link`, each served: `new`, `link`, and the last `read`
  obtain ⟨env₁, s₁, hReads, hBack⟩ := ends_accountLink.mp (Prog.ends_const.mpr ⟨hRun, rfl⟩)
  obtain ⟨a, env₀, s₀, m, m', hNew, hManager, hLink⟩ := hReads.linked
  obtain ⟨hNewRun, rfl⟩ := Prog.ends_const.mp hNew
  obtain ⟨hLinkRun, rfl⟩ := Prog.ends_const.mp hLink
  obtain ⟨hBackRun, -⟩ := Prog.ends_const.mp hBack
  rw [runAll_new] at hNewRun
  obtain ⟨hTexts, rfl⟩ := Prod.mk.inj hNewRun
  rw [runAll_read] at hBackRun
  obtain ⟨-, rfl⟩ := Prod.mk.inj hBackRun
  obtain ⟨msg, hMsg, a', hAccount⟩ := managerLink_true hLinkRun
  rw [account_of_new hManager] at hAccount
  have hDict : a.pddbDict = accountDict := (ofTexts_eq_iff.mp hTexts).1
  obtain ⟨l, hUpload, hStored⟩ := runAll_link_true hDict (congrArg Prod.fst hAccount)
  refine ⟨a, m, msg, ?_, hManager, hMsg, l, hUpload, fun name => ?_⟩
  · rw [runAll_read]
    exact hTexts
  · rw [hRun, newDisk, ← hStored, hAccount]

-- ---------------------------------------------------------------------------
-- Reading
-- ---------------------------------------------------------------------------

/-- What a linked device is read as, given the account it was linked from. -/
structure LinkedFrom (a b : Account U) (msg : ProvisionMessage) (l : Linked L) : Prop where
  aciServiceId : b.aciServiceId = textOf (some (utf8 msg.aci.serviceId))
  password : b.password = textOf (some (utf8 l.password))
  deviceId : b.deviceId = l.deviceId
  registered : b.registered = true
  host : b.host = a.host
  serviceEnvironment : b.serviceEnvironment = a.serviceEnvironment

/-- **Reading.** -/
theorem linked_read {a : Account U} {msg : ProvisionMessage} {l : Linked L} {s d : Disk}
    (hRead : ((Accounts.read accountDict).runAll serve .served s).1 = .ok (.ok a))
    (hStored : ∀ name, d accountDict name =
      stored accountDict (linkValues msg l) s accountDict name) :
    ∃ b, ((Accounts.read accountDict).runAll serve .served d).1 = .ok (.ok b) ∧
      LinkedFrom a b msg l := by
  obtain ⟨b, hb⟩ := exists_read_of_linked hRead hStored
  refine ⟨b, hb, ?_⟩
  rw [runAll_read] at hRead hb
  have hOld : ∀ k, Holds a (keyText s accountDict k) k := (ofTexts_eq_iff.mp hRead).2
  have hNew : ∀ k, Holds b (keyText d accountDict k) k := (ofTexts_eq_iff.mp hb).2
  -- what linking has stored, and what it has left as it was
  have hContent {k : Key} {v : Option String} (hMem : (k, v) ∈ linkValues msg l) :
      keyText d accountDict k = textOf (v.map utf8) := by
    rw [keyText, hStored, stored_of_mem (nodup_linkValues msg l) hMem]
  have hOther {k : Key} (hk : k ∉ (linkValues msg l).map Prod.fst) :
      keyText d accountDict k = keyText s accountDict k := by
    rw [keyText, hStored, stored_other hk, keyText]
  have hKept : Key.host ∉ (linkValues msg l).map Prod.fst ∧
      Key.serviceEnvironment ∉ (linkValues msg l).map Prod.fst := by
    unfold linkValues identityValues profileValues
    cases msg.accountEntropyPool <;> simp
  constructor
  -- the two values that are parsed
  · have hText := hContent (k := .aciServiceId) (v := some msg.aci.serviceId)
      (by simp [linkValues, profileValues])
    exact (hNew .aciServiceId).symm.trans hText
  · have hText := hContent (k := .password) (v := some l.password)
      (by simp [linkValues, identityValues])
    exact (hNew .password).symm.trans hText
  · have hText := hContent (k := .deviceId) (v := some (decimal l.deviceId.toNat))
      (by simp [linkValues, identityValues])
    have hParsed : (textOf (some (utf8 (decimal l.deviceId.toNat)))).bind parseDeviceId =
        some b.deviceId := hText ▸ hNew .deviceId
    rw [textOf_decimal l.deviceId.toNat_lt, Option.bind_some, parseDeviceId_decimal] at hParsed
    exact (Option.some.inj hParsed).symm
  · have hText := hContent (k := .registered) (v := some "true") (by simp [linkValues])
    have hParsed : (textOf (some (utf8 "true"))).bind parseBool = some b.registered :=
      hText ▸ hNew .registered
    have hTrue : (textOf (some (utf8 "true"))).bind parseBool = some true := by decide +kernel
    exact Option.some.inj (hParsed.symm.trans hTrue)
  -- linking does not write the last two
  · have hSame := hOther hKept.1 ▸ hNew .host
    exact Option.some.inj (hSame.symm.trans (hOld .host))
  · have hSame := hOther hKept.2 ▸ hNew .serviceEnvironment
    exact Option.some.inj (hSame.symm.trans (hOld .serviceEnvironment))

-- ---------------------------------------------------------------------------
-- Starting
-- ---------------------------------------------------------------------------

/-- There is a network, the chat shows the dialogue, and a thread can be
started. -/
structure Online (v : Process.Visit U L) : Prop where
  wifi : v.turn.wifi = true
  dialogueSet : v.dialogueSet = true
  thread : v.thread = .ok ()

/-- The worker is started for the account of the manager. -/
theorem startReceive_iff {c : SigChat U} {m : App.Manager U} (hManager : c.manager = some m)
    (args : WorkerArgs) :
    startReceive (.ok ()) c = .ok (some args) ↔ workerOf m.account = some args := by
  constructor
  · intro h
    obtain ⟨m', hManager', hArgs⟩ := workerOf_of_startReceive h
    obtain rfl := Option.some.inj (hManager.symm.trans hManager')
    exact hArgs
  · intro h
    obtain ⟨aci, hAci, h⟩ := Option.bind_eq_some_iff.mp h
    obtain ⟨password, hPassword, h⟩ := Option.bind_eq_some_iff.mp h
    obtain rfl := Option.some.inj h
    have hSpawned : managerStartReceive (.ok ()) m =
        .ok ⟨aci, m.account.deviceId, password, m.account.chatHost⟩ := by
      rw [managerStartReceive, hAci]
      dsimp only
      rw [hPassword]
      rfl
    rw [startReceive, hManager]
    dsimp only
    rw [hSpawned]

/-- **Starting.** The process connects a registered account at once, and starts
the worker of the account, if it has one. -/
theorem boot_online {v : Process.Visit U L} (hOnline : Online v) {b : Account U}
    {m : App.Manager U} {a : MainWs.App}
    (hRead : ((Accounts.read accountDict).runAll serve .served a.disk).1 = .ok (.ok b))
    (hRegistered : b.isRegistered = true) (hManager : Manager.new b = .ok m) :
    ∃ l, ((boot v).runAll appServe .served a).1 = some l ∧
      ∀ args, l.workers = [args] ↔ workerOf b = some args := by
  have hRun : (Accounts.read accountDict).runAll serve .served a.disk = (.ok (.ok b), a.disk) := by
    rw [runAll_read] at hRead ⊢
    exact Prod.ext hRead rfl
  have hOnly : registeredOnly (.ok b) = some b := by
    show Option.filter (·.isRegistered) (some b) = some b
    rw [Option.filter_some, if_pos hRegistered]
  -- `SigChat::new` finds the registered account
  have hNew : (SigChat.new : Prog Resp (Except App.Panic (SigChat U))).runAll serve .served a.disk =
      (.ok ⟨some m⟩, a.disk) := by
    rw [SigChat.new, onAccount, Prog.runAll_bind, hRun]
    dsimp only
    rw [hOnly]
    dsimp only
    rw [hManager]
    rfl
  -- a manager is there, so `connect` needs the network only
  have hConnect : (⟨some m⟩ : SigChat U).connect v.turn = .done (.ok (.ok true, ⟨some m⟩)) := by
    rw [SigChat.connect, if_pos hOnline.wifi]
    rfl
  have hBoot : ((boot v).runAll appServe .served a).1 = connected v ⟨⟨some m⟩, false, []⟩ := by
    rw [boot, Prog.runAll_bind, runAll_onPddb, hNew]
    dsimp only
    rw [if_pos (show SigChat.isReady (⟨some m⟩ : SigChat U) = true from rfl), tryConnect,
      Prog.runAll_bind, hConnect]
    rfl
  have hArgs : ∀ args, startReceive v.thread ⟨some m⟩ = .ok (some args) ↔
      workerOf b = some args := by
    intro args
    rw [hOnline.thread, startReceive_iff rfl, account_of_new hManager]
  -- one worker, or none where the account is not complete
  rw [hBoot, connected, if_pos hOnline.dialogueSet]
  split
  · rename_i args hStart
    refine ⟨_, rfl, fun args' => ?_⟩
    rw [(hArgs args).mp hStart, Option.some.injEq]
    show [args] = [args'] ↔ _
    rw [List.cons.injEq, and_iff_left rfl]
  · rename_i hNot
    refine ⟨_, rfl, fun args => ⟨fun h => ?_, fun h => ?_⟩⟩
    · exact absurd h.symm (List.cons_ne_nil args [])
    · exact absurd ((hArgs args).mpr h) (hNot args)

-- ---------------------------------------------------------------------------
-- The login
-- ---------------------------------------------------------------------------

/-- What the server knows a device under. -/
def login (aci : String) (deviceId : UInt32) : String := aci ++ "." ++ decimal deviceId.toNat

/-- A request logs in at a host. -/
structure LogsIn (u : Upgrade) (host login password : String) : Prop where
  url : u.url = "wss://" ++ host ++ "/v1/websocket/"
  credentials : BasicAuth.read u.authorization = some (login, password)

/-- The request of the worker logs in as its header is read. -/
theorem logsIn_iff (args : WorkerArgs) {host name password : String} (hHost : args.host = host) :
    LogsIn (newMessage args) host name password ↔
      BasicAuth.read (BasicAuth.header (login args.aciServiceId args.deviceId) args.password) =
        some (name, password) := by
  constructor
  · intro h
    exact h.credentials
  · intro h
    refine ⟨?_, h⟩
    show "wss://" ++ args.host ++ "/v1/websocket/" = _
    rw [hHost]

theorem toList_login (aci : String) (deviceId : UInt32) :
    (login aci deviceId).toList = aci.toList ++ '.' :: (decimal deviceId.toNat).toList := by
  rw [login, String.toList_append, String.toList_append, List.append_assoc]
  rfl

/-- Only the ACI can bring a colon into the login. -/
theorem colon_login_iff {aci : String} {deviceId : UInt32} :
    ':' ∈ (login aci deviceId).toList ↔ ':' ∈ aci.toList := by
  have hDecimal : ':' ∉ (decimal deviceId.toNat).toList := not_mem_decimal (by decide) _
  rw [toList_login, List.mem_append, List.mem_cons]
  constructor
  · rintro (h | h | h)
    · exact h
    · exact absurd h (by decide)
    · exact absurd h hDecimal
  · exact .inl

theorem utf8ByteSize_login (aci : String) (deviceId : UInt32) :
    aci.utf8ByteSize ≤ (login aci deviceId).utf8ByteSize := by
  rw [login, String.utf8ByteSize_append, String.utf8ByteSize_append]
  omega

/-- A header for what may have been cut off is read as the login of the device
exactly if nothing has been, and the ACI has no colon. -/
theorem read_login_iff {aci aci' password password' : String} {deviceId : UInt32}
    (hCut : aci'.utf8ByteSize ≤ aci.utf8ByteSize) :
    BasicAuth.read (BasicAuth.header (login aci' deviceId) password') =
        some (login aci deviceId, password) ↔
      ':' ∉ aci.toList ∧ aci' = aci ∧ password' = password := by
  rw [BasicAuth.read_header_iff, colon_login_iff]
  constructor
  · rintro ⟨hFree, hText⟩
    refine ⟨hFree, ?_⟩
    by_cases hColon : ':' ∈ aci'.toList
    · -- the login would be a part of the ACI that has been read
      obtain ⟨before, after, hEq, hBefore⟩ := List.eq_append_cons_of_mem hColon
      have hChars := congrArg String.toList hText
      rw [BasicAuth.toList_joined, BasicAuth.toList_joined, toList_login, hEq, List.append_assoc,
        List.append_assoc, List.cons_append] at hChars
      obtain ⟨hLogin, -⟩ := append_cons_inj_first hBefore
        (fun h => hFree (colon_login_iff.mp h)) hChars
      have hWhole : aci' = login aci deviceId ++ String.ofList (':' :: after) := by
        rw [← String.toList_inj, String.toList_append, String.toList_ofList, ← hLogin, hEq]
      have hSize := congrArg String.utf8ByteSize hWhole
      rw [String.utf8ByteSize_append] at hSize
      have hRest : 0 < (String.ofList (':' :: after)).utf8ByteSize := by
        rw [utf8ByteSize_ofList_eq_sum, List.map_cons, List.sum_cons]
        have hOne : (':').utf8Size = 1 := by decide
        omega
      have hLonger := utf8ByteSize_login aci deviceId
      omega
    -- both logins end at the colon that is written between login and password
    · obtain ⟨hLogin, hPassword⟩ := BasicAuth.joined_inj (fun h => hColon (colon_login_iff.mp h))
        (fun h => hFree (colon_login_iff.mp h)) hText
      refine ⟨?_, hPassword⟩
      have hChars := congrArg String.toList hLogin
      rw [toList_login, toList_login] at hChars
      exact String.toList_inj.mp (List.append_cancel_right hChars)
  · rintro ⟨hFree, rfl, rfl⟩
    exact ⟨hFree, rfl⟩

/-- What is read of a text is not longer than it. -/
theorem utf8ByteSize_of_textOf {text text' : String} (h : textOf (some (utf8 text)) = some text') :
    text'.utf8ByteSize ≤ text.utf8ByteSize := by
  have hBytes := congrArg List.length (utf8_of_fromUtf8 h)
  rw [List.length_take, length_utf8, length_utf8] at hBytes
  omega

-- ---------------------------------------------------------------------------
-- Logging in
-- ---------------------------------------------------------------------------

/-- The worker of a linked device logs in as that device exactly if nothing is
cut off when its account is read, and its ACI has no colon. -/
theorem worker_iff {a b : Account U} {msg : ProvisionMessage} {l : Linked L}
    (hFrom : LinkedFrom a b msg l) :
    (∃ args, workerOf b = some args ∧
        LogsIn (newMessage args) a.chatHost (login msg.aci.serviceId l.deviceId) l.password) ↔
      ':' ∉ msg.aci.serviceId.toList ∧ msg.aci.serviceId.utf8ByteSize ≤ 256 ∧
        l.password.utf8ByteSize ≤ 256 := by
  have hHost : b.chatHost = a.chatHost := by
    rw [Account.chatHost, hFrom.serviceEnvironment, hFrom.host]
    rfl
  have hAci := hFrom.aciServiceId
  have hPassword := hFrom.password
  -- at most 256 bytes are read back
  rw [← textOf_utf8_eq_iff, ← textOf_utf8_eq_iff]
  constructor
  · rintro ⟨args, hArgs, hLogsIn⟩
    obtain ⟨aci, hSome, hArgs⟩ := Option.bind_eq_some_iff.mp hArgs
    obtain ⟨password, hSome', hArgs⟩ := Option.bind_eq_some_iff.mp hArgs
    obtain rfl := Option.some.inj hArgs
    have hRead := (logsIn_iff ⟨aci, b.deviceId, password, b.chatHost⟩ hHost).mp hLogsIn
    rw [hFrom.deviceId] at hRead
    have hCut := utf8ByteSize_of_textOf (hAci.symm.trans hSome)
    -- the header says the whole ACI and password, so nothing of them has been cut off
    obtain ⟨hFree, rfl, rfl⟩ := (read_login_iff hCut).mp hRead
    exact ⟨hFree, hAci.symm.trans hSome, hPassword.symm.trans hSome'⟩
  · rintro ⟨hFree, hFits, hFits'⟩
    refine ⟨⟨msg.aci.serviceId, l.deviceId, l.password, b.chatHost⟩, ?_, ?_⟩
    · rw [workerOf, hAci, hFits, hPassword, hFits', hFrom.deviceId]
      rfl
    · exact (logsIn_iff _ hHost).mpr ((read_login_iff le_rfl).mpr ⟨hFree, rfl, rfl⟩)

variable {P : Protocol L}

/-- **The credentials.** A device has been linked: a message has come, and the
server has been sent the password of `x` and has answered with its device id.
After any number of starts on which it is used, the process, started once more
with a network, starts a worker that logs in at the same host under the ACI of
the message and that device id, with that password, exactly if the ACI has no
colon and both texts fit the buffer that they are read into. -/
theorem worker_logs_in_iff (hP : KeepsRules P) {t : Turn U L} {config : Config U}
    {linked : MainWs.App} {s : Disk} {b : Account U}
    (hLinked : (SigChat.accountLink t config).runAll serve .served s =
      (.ok (.ok b), linked.disk)) :
    ∃ (a : Account U) (msg : ProvisionMessage) (x : Exchange t.services),
      t.provisioned = .ok msg ∧ x.Of a (t.nameModal.getD "xous") msg ∧
      ∀ {ι : Type} [DecidableEq ι] (starts : List (Start ι U P)),
        (∀ b ∈ starts, ∀ i, ∀ w ∈ b.threads i, w.Everyday) →
        ∀ v : Process.Visit U L, Online v →
          ((∃ l args, ((boot v).runAll appServe .served (afterStarts starts linked)).1 = some l ∧
              l.workers = [args] ∧ LogsIn (newMessage args) a.chatHost
                (login msg.aci.serviceId x.response.deviceId) x.password) ↔
            ':' ∉ msg.aci.serviceId.toList ∧ msg.aci.serviceId.utf8ByteSize ≤ 256 ∧
              x.password.utf8ByteSize ≤ 256) := by
  obtain ⟨a, m, msg, hRead, hManager, hMsg, l, hUpload, hStored⟩ :=
    accountLink_ok (congrArg Prod.fst hLinked)
  obtain ⟨x, hx, rfl⟩ := exchange_of_upload hUpload
  refine ⟨a, msg, x, hMsg, hx, fun starts hEveryday v hOnline => ?_⟩
  -- the account is the one that has been linked, whatever has happened since
  have hSame := everyday_sameKeys hP hEveryday linked
  have hStored' : ∀ name, (afterStarts starts linked).disk accountDict name =
      stored accountDict (linkValues msg x.linked) (newDisk config s) accountDict name := by
    intro name
    rw [hSame.account, ← hStored, hLinked]
  obtain ⟨b', hBack, hFrom⟩ := linked_read hRead hStored'
  have hRegistered : b'.isRegistered = true := by
    rw [Account.isRegistered, hFrom.registered]
    rfl
  obtain ⟨c, hConfig, -⟩ := manager_new_eq hManager
  have hManager' : App.Manager.new b' = .ok ⟨b', c⟩ := by
    rw [App.Manager.new, hFrom.host, hFrom.serviceEnvironment, hConfig]
    rfl
  obtain ⟨l', hBoot, hWorkers⟩ := boot_online hOnline hBack hRegistered hManager'
  refine Iff.trans ⟨?_, ?_⟩ (worker_iff hFrom)
  · rintro ⟨l, args, hRun, hOne, hLogsIn⟩
    obtain rfl := Option.some.inj (hBoot.symm.trans hRun)
    exact ⟨args, (hWorkers args).mp hOne, hLogsIn⟩
  · rintro ⟨args, hArgs, hLogsIn⟩
    exact ⟨l', args, hBoot, (hWorkers args).mpr hArgs, hLogsIn⟩

/-- The user links the device. -/
def linking : Turn .plain .plain :=
  { LoadedManager.registering with provisioned := .ok plainMessage }

def freshlyLinked : MainWs.App where
  disk := ((SigChat.accountLink linking ⟨"signal.org", .live, "https://chat.signal.org"⟩).runAll
    serve .served fun _ _ => none).2
  posts := []
  redraws := 0

/-- The theorem for it, after two starts. -/
theorem worker_logs_in_twice :
    ∃ (a : Account .plain) (l : Loop .plain) (args : WorkerArgs),
      ((boot MainLoop.online).runAll appServe .served (afterStarts twoStarts freshlyLinked)).1 =
        some l ∧
      l.workers = [args] ∧ LogsIn (newMessage args) a.chatHost (login "aci" 2) "secret" := by
  obtain ⟨b, hLinked⟩ : ∃ b, (SigChat.accountLink linking
      ⟨"signal.org", .live, "https://chat.signal.org"⟩).runAll serve .served (fun _ _ => none) =
        (.ok (.ok b), freshlyLinked.disk) := by
    have hResult : ((SigChat.accountLink linking
        ⟨"signal.org", .live, "https://chat.signal.org"⟩).runAll serve .served
          (fun _ _ => none)).1.map (Except.map Account.deviceId) = .ok (.ok 2) := by
      decide +kernel
    obtain ⟨r, hr⟩ := exists_map_ok.mp ⟨_, hResult⟩
    rw [hr] at hResult
    obtain ⟨b, rfl⟩ := exists_map_ok.mp ⟨_, Except.ok.inj hResult⟩
    exact ⟨b, Prod.ext hr rfl⟩
  obtain ⟨a, msg, x, hMsg, hx, hIff⟩ := worker_logs_in_iff keepsRules_plain hLinked
  -- the exchange is the one of these services
  obtain rfl : plainMessage = msg := Except.ok.inj hMsg
  have hPassword : "secret" = x.password := Except.ok.inj hx.password
  have hResponse : (⟨"aci", "pni", 2⟩ : LinkDeviceResponse) = x.response :=
    Except.ok.inj hx.response
  obtain ⟨l, args, hRun, hOne, hLogsIn⟩ :=
    (hIff twoStarts everyday_twoStarts MainLoop.online ⟨rfl, rfl, rfl⟩).mpr
      ⟨by decide, by decide, by rw [← hPassword]; decide⟩
  rw [← hPassword, ← hResponse] at hLogsIn
  exact ⟨a, l, args, hRun, hOne, hLogsIn⟩

end Sigchat.Results.Credentials
