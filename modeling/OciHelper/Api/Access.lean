import OciHelper.Auth.Sessions
import OciHelper.Lib.Mux

/-!
# Who reaches which handler

* `table` : the routes of the server, with their guards;
* `withAuth`, `withAdmin`, `serve` : what becomes of a request, on the sessions that its guards find;
* `open_paths` : the paths that need no session;
* `handler_reached_iff` : in every run of the sessions, which requests reach a handler.
-/

namespace OciHelper.Api.Access
open Auth StepRun
open OciHelper.Db (Gcm Key)

inductive Guard
  | plain
  | withAuth
  | withAdmin
  deriving DecidableEq, Repr

structure Route where
  guard : Guard
  handler : String
  deriving DecidableEq, Repr

/-- The routes as they are registered; the last one is for the files of the frontend. -/
def table : List (String × Guard × String) := [
  ("/api/health", .plain, "handleHealth"),
  ("/api/login", .plain, "handleLogin"),
  ("/api/logout", .withAuth, "handleLogout"),
  ("/api/config", .withAuth, "handleConfig"),
  ("/api/oauth/google/login", .plain, "handleGoogleLogin"),
  ("/api/oauth/google/callback", .plain, "handleGoogleCallback"),
  ("/api/csrf-token", .withAuth, "handleCSRFToken"),
  ("/api/mfa/setup", .withAdmin, "handleMFASetup"),
  ("/api/mfa/verify", .withAdmin, "handleMFAVerify"),
  ("/api/mfa/disable", .withAdmin, "handleMFADisable"),
  ("/api/tenants", .withAuth, "handleTenants"),
  ("/api/instances", .withAuth, "handleInstances"),
  ("/api/instances/map", .withAuth, "handleInstanceMap"),
  ("/api/tasks", .withAuth, "handleTasks"),
  ("/api/audit", .withAuth, "handleAudit"),
  ("/api/ai/chat", .withAuth, "handleAIChat"),
  ("/api/telegram/webhook", .plain, "handleTelegramWebhook"),
  ("/api/backup", .withAdmin, "handleBackup"),
  ("/api/restore", .withAdmin, "handleRestore"),
  ("/api/public-ips", .withAuth, "handlePublicIPs"),
  ("/api/images", .withAuth, "handleListImages"),
  ("/api/shapes", .withAuth, "handleListShapes"),
  ("/api/vcns", .withAuth, "handleListVCNs"),
  ("/api/subnets", .withAuth, "handleListSubnets"),
  ("/api/availability-domains", .withAuth, "handleListADs"),
  ("/api/instances/batch-start", .withAuth, "handleBatchStart"),
  ("/api/metrics", .withAuth, "handleMetrics"),
  ("/api/boot-volumes", .withAuth, "handleBootVolumes"),
  ("/api/keys", .withAdmin, "handleKeys"),
  ("/api/dingtalk/notify", .withAuth, "handleDingTalkNotify"),
  ("/api/dingtalk/test", .withAuth, "handleDingTalkTest"),
  ("/api/update/check", .withAuth, "handleUpdateCheck"),
  ("/api/update/now", .withAdmin, "handleUpdateNow"),
  ("/api/admin/blacklist", .withAdmin, "handleAdminBlacklistList"),
  ("/api/admin/blacklist/clear", .withAdmin, "handleAdminBlacklistClear"),
  ("/api/notify/test", .withAuth, "handleNotifyTest"),
  ("/api/stock-alerts", .withAuth, "handleStockAlerts"),
  ("/api/ssh/keys", .withAdmin, "handleSSHKeys"),
  ("/api/users", .withAuth, "handleUsers"),
  ("/api/instances/vnc", .withAuth, "handleStartVNC"),
  ("/api/instances/vnc/stop", .withAuth, "handleStopVNC"),
  ("/api/instances/vnc/wait", .withAuth, "handleConsoleWait"),
  ("/api/instances/vnc/proxy", .withAuth, "handleVNCProxy"),
  ("/api/instances/config-info", .withAuth, "handleInstanceConfigInfo"),
  ("/api/shell/ws", .withAuth, "handleShellWS"),
  ("/api/cost/analysis", .withAuth, "handleCostAnalysis"),
  ("/api/cost", .withAuth, "handleCost"),
  ("/api/instances/change-shape", .withAuth, "handleChangeShape"),
  ("/api/instances/change-boot-volume", .withAuth, "handleChangeBootVolume"),
  ("/api/instances/attach-ipv6", .withAuth, "handleAttachIPv6"),
  ("/api/instances/disable-ipv6", .withAuth, "handleDisableIPv6"),
  ("/api/instances/network-status", .withAuth, "handleNetworkStatus"),
  ("/api/instances/update-name", .withAuth, "handleUpdateInstanceName"),
  ("/api/instances/change-ip", .withAuth, "handleChangeIP"),
  ("/api/instances/check-alive", .withAuth, "handleCheckAlive"),
  ("/api/instances/one-click-500m", .withAuth, "handleOneClick500M"),
  ("/api/instances/one-click-close-500m", .withAuth, "handleOneClickClose500M"),
  ("/api/instances/shrink-disk", .withAuth, "handleShrinkDisk"),
  ("/api/instances/auto-rescue", .withAuth, "handleAutoRescue"),
  ("/api/instances/update-shape", .withAuth, "handleUpdateShape"),
  ("/api/instances/config-update", .withAuth, "handleInstanceConfigUpdate"),
  ("/api/instances/check-alive-batch", .withAuth, "handleCheckAliveBatch"),
  ("/api/instances/netboot-rescue/stop", .withAuth, "handleNetbootRescueStop"),
  ("/api/instances/netboot-rescue", .withAuth, "handleNetbootRescue"),
  ("/api/glance", .withAuth, "handleGlance"),
  ("/api/security-rules", .withAuth, "handleSecurityRules"),
  ("/api/security-rules/release", .withAuth, "handleSecurityRuleRelease"),
  ("/api/traffic/getCondition", .withAuth, "handleTrafficCondition"),
  ("/api/traffic/fetchVnics", .withAuth, "handleTrafficVnics"),
  ("/api/traffic/accountStats", .withAuth, "handleTrafficAccountStats"),
  ("/api/traffic", .withAuth, "handleTraffic"),
  ("/api/limits/services", .withAuth, "handleLimitsServices"),
  ("/api/limits", .withAuth, "handleLimits"),
  ("/api/logs", .withAuth, "handleLogs"),
  ("/api/logs/ws", .withAuth, "handleLogWS"),
  ("/api/system/metrics", .withAuth, "handleSystemMetrics"),
  ("/api/instances/batch-create", .withAuth, "handleBatchCreate"),
  ("/api/instance-plans", .withAuth, "handleInstancePlans"),
  ("/api/ip-data", .withAuth, "handleIpData"),
  ("/api/defense/enable", .withAuth, "handleDefenseEnable"),
  ("/api/defense/disable", .withAuth, "handleDefenseDisable"),
  ("/api/ip-blacklist", .withAuth, "handleIPBlacklist"),
  ("/api/create-tasks", .withAuth, "handleCreateTasks"),
  ("/api/create-tasks/", .withAuth, "handleCreateTasks"),
  ("/api/create-tasks/recurring", .withAuth, "handleRecurringTasks"),
  ("/api/create-tasks/recurring/", .withAuth, "handleRecurringTaskByID"),
  ("/api/mem-tasks/change-ip", .withAuth, "handleMemTasksChangeIP"),
  ("/api/mem-tasks/update-cfg", .withAuth, "handleMemTasksUpdateCfg"),
  ("/api/ip-info", .plain, "handleIPInfo"),
  ("/api/tenants/upload", .withAuth, "handleTenantUpload"),
  ("/api/tenants/refresh-plan-type/batch", .withAuth, "handleRefreshPlanTypeBatch"),
  ("/api/captcha/send", .withAuth, "handleCaptchaSend"),
  ("/api/tenants/check-alive", .withAuth, "handleTenantAliveCheck"),
  ("/api/instances/update-password", .withAuth, "handleUpdateRootPassword"),
  ("/api/ai/chat/cache", .withAuth, "handleAIChatCacheClear"),
  ("/api/tenants/", .withAuth, "handleTenantByID"),
  ("/api/instances/", .withAuth, "handleInstanceAction"),
  ("/api/shell/", .withAuth, "handleShell"),
  ("/api/cloudflare/auto-sync/status", .withAuth, "handleCloudflareAutoSyncStatus"),
  ("/api/cloudflare/auto-sync/trigger", .withAuth, "handleCloudflareAutoSyncTrigger"),
  ("/api/cloudflare/bindings", .withAuth, "handleDNSBindings"),
  ("/api/cloudflare/bindings/", .withAuth, "handleDNSBindingByID"),
  ("/api/cloudflare/", .withAuth, "handleCloudflare"),
  ("/api/cloudflare/cfgs", .withAuth, "handleCloudflareCfgs"),
  ("/api/cloudflare/cfgs/", .withAuth, "handleCloudflareCfgByID"),
  ("/api/cloudflare/oci-sync", .withAuth, "handleCloudflareOCISync"),
  ("/api/public-ips/", .withAuth, "handlePublicIPByID"),
  ("/api/boot-volumes/", .withAuth, "handleBootVolumeByID"),
  ("/api/keys/", .withAdmin, "handleKeyByID"),
  ("/api/vcns/", .withAuth, "handleVCNByID"),
  ("/api/ssh/keys/", .withAdmin, "handleSSHKeyByID"),
  ("/api/instance-plans/", .withAuth, "handleInstancePlanByID"),
  ("/api/ip-data/", .withAuth, "handleIpDataByID"),
  ("/api/users/", .withAuth, "handleUserByID"),
  ("/api/sync/", .withAuth, "handleSync"),
  ("/api/stock-alerts/", .withAuth, "handleStockAlertByID"),
  ("/", .plain, "fileServer")]

def routes : List (Mux.Pattern × Route) := table.map fun r => (.ofText r.1.toList, ⟨r.2.1, r.2.2⟩)

/-- A number for a pattern, which is faster to compare. -/
def code (p : Mux.Pattern) : Nat := (Mux.text p.segs).foldl (fun n c => n * 128 + c.toNat) p.subtree.toNat

theorem nodup_routes : (routes.map Prod.fst).Nodup := by
  have hcodes : (routes.map fun r => code r.1).Nodup := by decide +kernel
  refine List.Nodup.of_map code ?_
  rw [List.map_map]
  exact hcodes

/-- `cleaned` says that the path has no segments that a cleaning changes. -/
structure Request where
  method : String
  path : List Mux.Segment
  cleaned : Bool := true
  cookie : Option String := none
  csrf : String := ""

inductive Reply
  | redirect
  | notFound
  | unauthorized
  | invalidCSRF
  | adminRequired
  | handled (route : Route)
  deriving DecidableEq, Repr

/-- The token of the session is asked for. -/
def needsToken (r : Request) : Bool :=
  r.method ≠ "GET" && r.method ≠ "HEAD" && r.method ≠ "OPTIONS" && Mux.text r.path ≠ "/api/csrf-token".toList

def withAuth (session : Option Session) (r : Request) (next : Reply) : Reply :=
  match session with
  | none => .unauthorized
  | some sess => if needsToken r && (r.csrf = "" || r.csrf ≠ sess.csrfToken) then .invalidCSRF else next

/-- `requireAdmin`, on the session that it finds. -/
def requireAdmin (session : Option Session) (next : Reply) : Reply :=
  if session.any fun sess => sess.role = "admin" then next else .adminRequired

/-- The handlers that ask for an administrator themselves. -/
def asksForAdmin (handler method : String) : Bool :=
  handler = "handleUsers" || handler = "handleUserByID" || (handler = "handleConfig" && method = "POST")

def needsAdmin (route : Route) (method : String) : Bool :=
  route.guard = .withAdmin || asksForAdmin route.handler method

/-- `first` is the session that `withAuth` finds, `second` the one that `requireAdmin` does, later. -/
def serve (first second : Option Session) (r : Request) : Reply :=
  if Mux.redirects routes r.path || !r.cleaned then .redirect
  else
    match Mux.find routes r.path with
    | none => .notFound
    | some (_, route) =>
      match route.guard with
      | .plain => .handled route
      | _ =>
        withAuth first r (if needsAdmin route r.method then requireAdmin second (.handled route) else .handled route)

/-! ## The table -/

/-- The route for the path of a request, the longest one that matches. -/
structure Routed (r : Request) (route : Route) : Prop where
  cleaned : r.cleaned
  direct : Mux.redirects routes r.path = false
  longest : ∃ p, (p, route) ∈ routes ∧ p.Matches r.path ∧
    ∀ q ∈ routes, q.1.Matches r.path → q.1.segs.length ≤ p.segs.length

theorem routed_iff {r : Request} (hpath : r.path ≠ []) (route : Route) :
    Routed r route ↔
      (Mux.redirects routes r.path || !r.cleaned) = false ∧ ∃ p, Mux.find routes r.path = some (p, route) := by
  simp only [Mux.find_eq_some_iff nodup_routes hpath, Bool.or_eq_false_iff, Bool.not_eq_eq_eq_not, Bool.not_false]
  constructor
  · exact fun h => ⟨⟨h.direct, h.cleaned⟩, h.longest⟩
  · exact fun h => ⟨h.1.2, h.1.1, h.2⟩

def openPaths : List (List Char) :=
  ["/api/health".toList, "/api/login".toList, "/api/oauth/google/login".toList, "/api/oauth/google/callback".toList,
    "/api/telegram/webhook".toList, "/api/ip-info".toList]

/-- The routes without a guard are for one path each, but for the last one. -/
theorem plain_routes : ∀ r ∈ routes, r.2.guard = .plain →
    r.2.handler = "fileServer" ∨ (r.1.subtree = false ∧ Mux.text r.1.segs ∈ openPaths) := by decide +kernel

theorem text_of_plain {r : Request} {route : Route} (h : Routed r route) (hplain : route.guard = .plain) :
    route.handler = "fileServer" ∨ Mux.text r.path ∈ openPaths := by
  obtain ⟨p, hp, hmatch, -⟩ := h.longest
  refine (plain_routes _ hp hplain).imp_right fun ⟨hexact, htext⟩ => ?_
  rw [Mux.Pattern.Matches, hexact, if_neg Bool.false_ne_true] at hmatch
  exact hmatch ▸ htext

/-- What the guards of a route ask for. -/
structure Admitted (first second : Option Session) (r : Request) (route : Route) (sess : Session) : Prop where
  session : first = some sess
  token : needsToken r = true → r.csrf ≠ "" ∧ r.csrf = sess.csrfToken
  admin : needsAdmin route r.method = true → ∃ sess', second = some sess' ∧ sess'.role = "admin"

theorem withAuth_eq_handled {first second : Option Session} {r : Request} {route : Route} :
    withAuth first r (if needsAdmin route r.method then requireAdmin second (.handled route) else .handled route) =
        .handled route ↔ ∃ sess, Admitted first second r route sess := by
  cases first with
  | none => exact ⟨nofun, fun ⟨_, h, _, _⟩ => nomatch h⟩
  | some sess =>
    have hadmin : (if needsAdmin route r.method then requireAdmin second (.handled route) else .handled route) =
        Reply.handled route ↔
      (needsAdmin route r.method = true → ∃ sess', second = some sess' ∧ sess'.role = "admin") := by
      cases needsAdmin route r.method with
      | false => simp
      | true => cases second <;> simp [requireAdmin]
    constructor
    · intro h
      refine ⟨sess, rfl, fun hneeds => ?_, ?_⟩
      · by_contra hbad
        have hrefused : (needsToken r && (r.csrf = "" || r.csrf ≠ sess.csrfToken)) = true := by
          rw [hneeds, Bool.true_and]
          by_cases hempty : r.csrf = ""
          · simp [hempty]
          · simp only [not_and] at hbad
            simp [hbad hempty]
        rw [withAuth, if_pos hrefused] at h
        cases h
      · rw [withAuth] at h
        split at h
        · cases h
        · exact hadmin.mp h
    · rintro ⟨_, ⟨⟩, htoken, hrole⟩
      have haccepted : (needsToken r && (r.csrf = "" || r.csrf ≠ sess.csrfToken)) = false := by
        cases hneeds : needsToken r with
        | false => rfl
        | true =>
          obtain ⟨hne, heq⟩ := htoken hneeds
          simpa [heq] using fun h => hne (heq.trans h)
      rw [withAuth, haccepted]
      exact hadmin.mpr hrole

theorem serve_eq_handled {first second : Option Session} {r : Request} (hpath : r.path ≠ []) (route : Route) :
    serve first second r = .handled route ↔
      Routed r route ∧ (route.guard = .plain ∨ ∃ sess, Admitted first second r route sess) := by
  rw [routed_iff hpath]
  unfold serve
  cases hredirect : Mux.redirects routes r.path || !r.cleaned with
  | true => simp
  | false =>
    rw [if_neg Bool.false_ne_true]
    cases hfind : Mux.find routes r.path with
    | none => simp
    | some found =>
      obtain ⟨p, route'⟩ := found
      have hroute : (∃ q, some (p, route') = some (q, route)) ↔ route' = route := by
        constructor
        · rintro ⟨q, heq⟩
          exact congrArg Prod.snd (Option.some.inj heq)
        · rintro rfl
          exact ⟨p, rfl⟩
      rw [hroute]
      constructor
      · intro h
        have heq : route' = route := by
          dsimp only at h
          split at h
          · exact Reply.handled.inj h
          · unfold withAuth requireAdmin at h
            cases first with
            | none => cases h
            | some sess =>
              dsimp only at h
              split at h
              · cases h
              · split at h
                · split at h
                  · exact Reply.handled.inj h
                  · cases h
                · exact Reply.handled.inj h
        subst heq
        refine ⟨⟨rfl, rfl⟩, ?_⟩
        dsimp only at h
        split at h
        · next hplain => exact .inl hplain
        · exact .inr (withAuth_eq_handled.mp h)
      · rintro ⟨⟨-, rfl⟩, hguard⟩
        dsimp only
        split
        · rfl
        · next hnot => exact withAuth_eq_handled.mpr (hguard.resolve_left hnot)

/-! ## Every run -/

section
variable {json : SessionJson} {mac : Key → List UInt8 → List UInt8} {gcm : Gcm} {key : Key}

theorem minted_subset {s t : State json mac gcm key} {es : List Event}
    (h : Run (step json mac gcm key) Genuine s es t) : s.minted ⊆ t.minted := by
  refine h.invariant (I := fun t => s.minted ⊆ t.minted) (fun u e u' _ hsub hs => ?_) (List.Subset.refl _)
  unfold step at hs
  split at hs
  · cases hs
    cases e with
    | login now user role rand | create now user role rand =>
      exact fun m hm => List.mem_append_right _ (hsub hm)
    | logout | cleanup | request => exact hsub
  · cases hs

/-- The session has not expired, and no logout was made with it. -/
structure Live (s : State json mac gcm key) (now : Int) (m : Minted json mac gcm key) : Prop where
  age : now - m.session.createdAt < sessionTTL
  kept : ∀ c ∈ s.logouts, sealedPart c ≠ sealedPart m.cookie

/-- **Who reaches a handler.** In every run of the sessions, a request reaches the handler of the longest route that
matches its path just when the route has no guard, or when its cookie is that of a session that was minted, has not
expired and was not logged out, with the token of the session where one is asked for, and, for the handlers of
administrators, minted for an administrator and still live when they ask. Without a cookie, these are the files of the
frontend and the paths above. -/
theorem handler_reached_iff {clock : Int} {es es' : List Event} {s s' : State json mac gcm key}
    (h : Run (step json mac gcm key) Genuine { clock } es s) (h' : Run (step json mac gcm key) Genuine s es' s')
    {now now' : Int} (hnow : s.clock ≤ now) (hnow' : s'.clock ≤ now') {r : Request} (hpath : r.path ≠ [])
    (hcookie : ∀ c ∈ r.cookie, Unforged s c) (route : Route) :
    (serve (getSession json mac gcm key s.revoked now r.cookie)
        (getSession json mac gcm key s'.revoked now' r.cookie) r =
        .handled route ↔
      Routed r route ∧ (route.guard = .plain ∨ ∃ c ∈ r.cookie, ∃ m ∈ s.minted, sealedPart c = sealedPart m.cookie ∧
        Live s now m ∧ (needsToken r = true → r.csrf ≠ "" ∧ r.csrf = m.session.csrfToken) ∧
        (needsAdmin route r.method = true → Live s' now' m ∧ m.session.role = "admin"))) ∧
    (Routed r route → route.guard = .plain → route.handler = "fileServer" ∨ Mux.text r.path ∈ openPaths) := by
  refine ⟨?_, text_of_plain⟩
  rw [serve_eq_handled hpath]
  refine and_congr_right fun _ => or_congr_right ?_
  have hinv := inv_run h (Inv.start clock)
  have hinv' := inv_run h' hinv
  cases hc : r.cookie with
  | none =>
    constructor
    · rintro ⟨sess, hsess, -, -⟩
      cases hsess
    · rintro ⟨c, hmem, -⟩
      cases hmem
  | some c =>
    have hun := hcookie c hc
    have hun' := hun.mono (minted_subset h')
    constructor
    · rintro ⟨sess, hsess, htoken, hadmin⟩
      obtain ⟨m, hm, hsame, rfl, hage, hkept⟩ := (hinv.getSession_iff hnow hun sess).mp hsess
      refine ⟨c, rfl, m, hm, hsame, ⟨hage, hkept⟩, htoken, fun hneeds => ?_⟩
      obtain ⟨sess', hsess', hrole⟩ := hadmin hneeds
      obtain ⟨m', -, hsame', rfl, hage', hkept'⟩ := (hinv'.getSession_iff hnow' hun' sess').mp hsess'
      have hsession := session_eq_of_sealedPart (hsame.symm.trans hsame')
      refine ⟨⟨hsession ▸ hage', fun l hl => ?_⟩, hsession ▸ hrole⟩
      rw [hsame.symm.trans hsame']
      exact hkept' l hl
    · rintro ⟨_, ⟨⟩, m, hm, hsame, hlive, htoken, hadmin⟩
      refine ⟨m.session, (hinv.getSession_iff hnow hun _).mpr ⟨m, hm, hsame, rfl, hlive.age, hlive.kept⟩, htoken,
        fun hneeds => ?_⟩
      obtain ⟨hlive', hrole⟩ := hadmin hneeds
      exact ⟨m.session, (hinv'.getSession_iff hnow' hun' _).mpr
        ⟨m, minted_subset h' hm, hsame, rfl, hlive'.age, hlive'.kept⟩, hrole⟩

end

/-- A change of the settings by an administrator, with the cookie that was minted. -/
def exampleRequest (cookie : String) : Request where
  method := "POST"
  path := ["api".toList, "config".toList]
  cookie := some cookie
  csrf := exampleSession.csrfToken

theorem handler_reached_example : ∃ m ∈ exampleState.minted,
    serve (getSession exampleJson exampleMac Db.Gcm.keyed Db.zeroKey exampleState.revoked 1 (some m.cookie))
      (getSession exampleJson exampleMac Db.Gcm.keyed Db.zeroKey exampleState.revoked 2 (some m.cookie))
      (exampleRequest m.cookie) = .handled ⟨.withAuth, "handleConfig"⟩ := by
  obtain ⟨m, hminted, hsession, -⟩ := exampleState_minted
  have hmem : m ∈ exampleState.minted := hminted ▸ List.mem_singleton_self m
  have hunforged : ∀ c ∈ (exampleRequest m.cookie).cookie, Unforged exampleState c := by
    rintro _ ⟨⟩ bytes hbytes _
    exact ⟨m, hmem, hbytes⟩
  have hlive : ∀ now < sessionTTL, Live exampleState now m := by
    intro now hnow
    refine ⟨?_, fun c hc => absurd hc List.not_mem_nil⟩
    rw [hsession]
    exact lt_of_eq_of_lt (sub_zero now) hnow
  have hfind : Mux.find routes ["api".toList, "config".toList] =
      some (⟨["api".toList, "config".toList], false⟩, ⟨.withAuth, "handleConfig"⟩) := by decide +kernel
  have hdirect : Mux.redirects routes ["api".toList, "config".toList] = false := by decide +kernel
  have hrouted : Routed (exampleRequest m.cookie) ⟨.withAuth, "handleConfig"⟩ :=
    (routed_iff (List.cons_ne_nil _ _) _).mpr ⟨by rw [exampleRequest, hdirect]; rfl, _, hfind⟩
  refine ⟨m, hmem, (handler_reached_iff exampleRun (.nil exampleState) (show (0 : Int) ≤ 1 by decide)
    (show (0 : Int) ≤ 2 by decide) (List.cons_ne_nil _ _) hunforged _).1.mpr
    ⟨hrouted, .inr ⟨m.cookie, rfl, m, hmem, rfl,
      hlive 1 (by decide), fun _ => ?_, fun _ => ⟨hlive 2 (by decide), ?_⟩⟩⟩⟩
  · rw [hsession]
    exact ⟨show exampleSession.csrfToken ≠ "" by decide, rfl⟩
  · rw [hsession]
    rfl

end OciHelper.Api.Access
