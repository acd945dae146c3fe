import ShiftPV.Measurement
import ShiftPV.Theorems.PoolIsolation

/-! Probe answers are fresh. A nonce reaches the Node only through the Pool, so what the Node measures for it was measured
    after it was posted; and an answer is stored under the nonce of the request it was measured for. A caller compares
    the nonce and takes no other answer. -/

namespace ShiftPV
open Check ProbeWorld

variable {digest : MeasuredRegistration → String} {w w' : ProbeWorld}

/-! ### What the invariant says -/

def RegisteredPool.key (pool : RegisteredPool) : String × String × String := (pool.name, pool.uid, pool.nodeName)

def AnswerStage.requestID : AnswerStage → String
  | .verifying _ request | .measuring _ request | .confirming _ request _ => request.id
  | .recording _ result => result.requestID

def Seen (w : ProbeWorld) (id : String) : Prop :=
  (∃ request, w.pool.capacityProbeRequest = some request ∧ request.id = id) ∨
    (∃ answer, w.pool.status.capacityProbe = some answer ∧ answer.requestID = id) ∨ ∃ stage ∈ w.answers, stage.requestID = id

/-- The numbers of an answer were measured after every post of its nonce, for the evidence it names. -/
def CapacityProbeResult.Fresh (answer : CapacityProbeResult) (digest : MeasuredRegistration → String)
    (key : String × String × String) (trace : List ProbeEvent) : Prop :=
  answer.error = "" → 0 < answer.totalBytes → ∀ {call request newer older},
    trace = newer ++ .posted call request :: older → request.id = answer.requestID →
      ∃ pool, .measured pool answer.stats ∈ newer ∧ pool.key = key ∧ measurementEvidence digest pool = .ok answer.evidence

def AnswerStage.Sound (stage : AnswerStage) (digest : MeasuredRegistration → String) (key : String × String × String)
    (trace : List ProbeEvent) : Prop :=
  match stage with
  | .verifying pool request | .measuring pool request => pool.key = key ∧ measurementEvidence digest pool = .ok request.evidence
  | .confirming _ request stats => (request.answered stats).Fresh digest key trace
  | .recording _ result => result.Fresh digest key trace

/-- Returned statistics were measured after the call posted its request, for the Pool and the evidence it was called with. -/
def ProbeEvent.Justified (digest : MeasuredRegistration → String) : ProbeEvent → List ProbeEvent → Prop
  | .returned call expected stats, earlier => ∃ newer between older pool request,
      earlier = newer ++ .measured pool stats :: (between ++ .posted call request :: older) ∧ pool.key = expected.key ∧
        measurementEvidence digest expected = .ok request.evidence ∧ measurementEvidence digest pool = .ok request.evidence
  | _, _ => True

def Requesting (w : ProbeWorld) (call : Nat) (expected pool : RegisteredPool) (request : ProbeRequest) : Prop :=
  w.calls[call]? = some { expected, stage := .requesting pool request }

def Awaiting (w : ProbeWorld) (call : Nat) (expected pool : RegisteredPool) (request : ProbeRequest) : Prop :=
  w.calls[call]? = some { expected, stage := .awaiting pool request }

structure CallDrew (digest : MeasuredRegistration → String) (key : String × String × String) (nonces : List String)
    (expected pool : RegisteredPool) (request : ProbeRequest) : Prop where
  expectedKey : expected.key = key
  poolKey : pool.key = key
  evidence : measurementEvidence digest expected = .ok request.evidence
  nonce : request.id ∈ nonces

structure ProbeSound (digest : MeasuredRegistration → String) (w : ProbeWorld) : Prop where
  trace : Run.Traced (ProbeEvent.Justified digest) w.trace
  known : ∀ {id}, Seen w id → id ∈ w.nonces
  named : ∀ {c}, c ∈ w.calls → c.expected.name = w.pool.name
  requesting : ∀ {call expected pool request}, Requesting w call expected pool request →
    CallDrew digest w.pool.key w.nonces expected pool request ∧ ¬Seen w request.id
  apart : ∀ {i j expected expected' pool pool' request request'}, Requesting w i expected pool request →
    Requesting w j expected' pool' request' → request.id = request'.id → i = j
  awaiting : ∀ {call expected pool request}, Awaiting w call expected pool request →
    CallDrew digest w.pool.key w.nonces expected pool request ∧ .posted call request ∈ w.trace
  stored : ∀ {answer}, w.pool.status.capacityProbe = some answer → answer.Fresh digest w.pool.key w.trace
  answers : ∀ {stage}, stage ∈ w.answers → stage.Sound digest w.pool.key w.trace

/-! ### Reads -/

variable {pool : RegisteredPool}

theorem readyPoolForIdentity_stored {r : PoolReader} {name uid nodeName : String}
    (hname : name = w.pool.name) (h : r.readyPoolForIdentity w.stored name uid nodeName = .ok pool) :
    pool = w.pool ∧ w.pool.key = (name, uid, nodeName) := by
  obtain ⟨found, hfound, h⟩ := bind_ok.mp h
  have hpool : pool = found := by
    split at h
    · simp at h
    · rw [seq_ok] at h
      exact (pure_ok.mp h.2).symm
  rw [PoolReader.poolForIdentity, seq_ok] at hfound
  obtain ⟨-, hfound⟩ := hfound
  have hfind : w.stored.find? (fun pool => pool.name = name) = some w.pool := by simp [ProbeWorld.stored, hname]
  rw [hfind] at hfound
  simp only at hfound
  rw [seq_ok, seq_ok, require_ok] at hfound
  obtain ⟨⟨huid, hnode⟩, -, hfound⟩ := hfound
  obtain rfl := pure_ok.mp hfound
  exact ⟨hpool, by simp [RegisteredPool.key, hname, huid, hnode]⟩

variable {expected : RegisteredPool}

theorem matchingEvidence_ok {current : RegisteredPool} {evidence : String}
    (h : matchingEvidence digest expected current = .ok evidence) :
    measurementEvidence digest expected = .ok evidence ∧ measurementEvidence digest current = .ok evidence := by
  obtain ⟨left, hleft, h⟩ := bind_ok.mp h
  split at h
  · rename_i right hright
    rw [seq_ok, require_ok] at h
    obtain ⟨rfl, h⟩ := h
    obtain rfl := pure_ok.mp h
    exact ⟨hleft, hright⟩
  · simp at h

variable {request : ProbeRequest}

theorem awaitPoll_ok {r : PoolReader} {stats : Filesystem}
    (hname : expected.name = w.pool.name) (h : awaitPoll digest r w.stored expected request = .ok (some stats)) :
    ∃ answer, w.pool.status.capacityProbe = some answer ∧ answer.requestID = request.id ∧
      answer.evidence = request.evidence ∧ answer.error = "" ∧ 0 < answer.totalBytes ∧ answer.stats = stats := by
  obtain ⟨pool, hpool, h⟩ := bind_ok.mp h
  obtain ⟨rfl, -⟩ := readyPoolForIdentity_stored hname hpool
  obtain ⟨evidence, -, h⟩ := bind_ok.mp h
  split at h
  · simp at h
  · rename_i answer hanswer
    split at h
    · simp at h
    · rename_i hid
      rw [seq_ok, require_ok] at h
      obtain ⟨⟨hevidence, -⟩, h⟩ := h
      split at h
      · simp at h
      · rw [seq_ok, seq_ok, seq_ok, require_ok, require_ok, require_ok] at h
        obtain ⟨-, herror, ⟨htotal, -⟩, h⟩ := h
        have hstats := Option.some.inj (pure_ok.mp h)
        exact ⟨answer, hanswer, not_not.mp hid, hevidence, herror, htotal, hstats⟩

/-! ### What changes keep the invariant -/

/-- An event leaves an answer fresh, unless it posts the nonce of the answer. -/
theorem CapacityProbeResult.Fresh.later {answer : CapacityProbeResult} {key : String × String × String} {trace : List ProbeEvent}
    {e : ProbeEvent} (h : answer.Fresh digest key trace)
    (he : ∀ {call request}, e = .posted call request → request.id ≠ answer.requestID) : answer.Fresh digest key (e :: trace) := by
  intro herror htotal call request newer older hsplit hid
  cases newer with
  | nil =>
    obtain ⟨rfl, -⟩ := List.cons.inj hsplit
    exact absurd hid (he rfl)
  | cons first newer =>
    obtain ⟨rfl, htrace⟩ := List.cons.inj hsplit
    obtain ⟨pool, hmeasured, hpool⟩ := h herror htotal htrace hid
    exact ⟨pool, List.mem_cons_of_mem _ hmeasured, hpool⟩

theorem ProbeRequest.failed_fresh {e : String} {key : String × String × String} {trace : List ProbeEvent} :
    (request.failed e).Fresh digest key trace := by
  intro _ htotal
  simp [ProbeRequest.failed] at htotal

theorem AnswerStage.Sound.later {stage : AnswerStage} {key : String × String × String} {trace : List ProbeEvent} {e : ProbeEvent}
    (h : stage.Sound digest key trace) (he : ∀ {call request}, e = .posted call request → request.id ≠ stage.requestID) :
    stage.Sound digest key (e :: trace) := by
  cases stage with
  | verifying pool request => exact h
  | measuring pool request => exact h
  | confirming pool request stats | recording pool result => exact CapacityProbeResult.Fresh.later h he

theorem getElem?_set_cases {α : Type} {l : List α} {i j : Nat} {a b : α} (h : (l.set i a)[j]? = some b) :
    j = i ∧ b = a ∨ j ≠ i ∧ l[j]? = some b := by
  rw [List.getElem?_set] at h
  split at h
  · rename_i hij
    split at h
    · exact .inl ⟨hij.symm, (Option.some.inj h).symm⟩
    · simp at h
  · rename_i hij
    exact .inr ⟨Ne.symm hij, h⟩

namespace ProbeSound

theorem repool (h : ProbeSound digest w) {peers : List RegisteredPool} (hkey : pool.key = w.pool.key)
    (hrequest : pool.capacityProbeRequest = w.pool.capacityProbeRequest)
    (hanswer : pool.status.capacityProbe = w.pool.status.capacityProbe) : ProbeSound digest { w with pool, peers } where
  trace := h.trace
  known hseen := h.known (by simpa only [Seen, hrequest, hanswer] using hseen)
  named hmem := (h.named hmem).trans (congrArg Prod.fst hkey).symm
  requesting hcall := by
    obtain ⟨hdrew, hunseen⟩ := h.requesting hcall
    refine ⟨hkey.symm ▸ hdrew, fun hseen => hunseen ?_⟩
    simpa only [Seen, hrequest, hanswer] using hseen
  apart := h.apart
  awaiting hcall := by
    obtain ⟨hdrew, hposted⟩ := h.awaiting hcall
    exact ⟨hkey.symm ▸ hdrew, hposted⟩
  stored hstored := by
    have hfresh := h.stored (hanswer.symm.trans hstored)
    exact hkey.symm ▸ hfresh
  answers hmem := by
    have hsound := h.answers hmem
    exact hkey.symm ▸ hsound

theorem log (h : ProbeSound digest w) {e : ProbeEvent} (hjustified : e.Justified digest w.trace)
    (he : ∀ {call request}, e ≠ .posted call request) : ProbeSound digest (w.log e) where
  trace := ⟨hjustified, h.trace⟩
  known := h.known
  named := h.named
  requesting := h.requesting
  apart := h.apart
  awaiting hcall := ⟨(h.awaiting hcall).1, List.mem_cons_of_mem _ (h.awaiting hcall).2⟩
  stored hstored := (h.stored hstored).later fun heq => absurd heq he
  answers hmem := (h.answers hmem).later fun heq => absurd heq he

theorem reanswer (h : ProbeSound digest w) {answers : List AnswerStage}
    (hsound : ∀ {stage}, stage ∈ answers → stage.Sound digest w.pool.key w.trace)
    (hseen : ∀ {stage}, stage ∈ answers → Seen w stage.requestID) : ProbeSound digest { w with answers } := by
  have hback : ∀ {id}, Seen { w with answers } id → Seen w id := by
    rintro id (hrequest | hanswer | ⟨stage, hmem, rfl⟩)
    · exact .inl hrequest
    · exact .inr (.inl hanswer)
    · exact hseen hmem
  exact { trace := h.trace, known := fun hid => h.known (hback hid), named := h.named, apart := h.apart, stored := h.stored
          answers := hsound, awaiting := h.awaiting
          requesting := fun hcall => ⟨(h.requesting hcall).1, fun hid => (h.requesting hcall).2 (hback hid)⟩ }

theorem setAnswer (h : ProbeSound digest w) {index : Nat} {stage stage' : AnswerStage} (hget : w.answers[index]? = some stage)
    (hid : stage'.requestID = stage.requestID) (hsound : stage'.Sound digest w.pool.key w.trace) :
    ProbeSound digest (w.setAnswer index stage') := by
  refine h.reanswer (fun hmem => ?_) fun hmem => ?_
  · rcases List.mem_or_eq_of_mem_set hmem with hmem | rfl
    · exact h.answers hmem
    · exact hsound
  · rcases List.mem_or_eq_of_mem_set hmem with hmem | rfl
    · exact .inr (.inr ⟨_, hmem, rfl⟩)
    · exact .inr (.inr ⟨stage, List.mem_of_getElem? hget, hid.symm⟩)

theorem leaveAnswer (h : ProbeSound digest w) (index : Nat) : ProbeSound digest { w with answers := w.answers.eraseIdx index } :=
  h.reanswer (fun hmem => h.answers (List.mem_of_mem_eraseIdx hmem))
    fun hmem => .inr (.inr ⟨_, List.mem_of_mem_eraseIdx hmem, rfl⟩)

theorem setCall (h : ProbeSound digest w) {call : Nat} {stage stage' : StatFSStage}
    (hget : w.calls[call]? = some { expected, stage }) (hposts : ∀ {pool request}, stage' ≠ .requesting pool request)
    (hposted : ∀ {pool request}, stage' = .awaiting pool request →
      CallDrew digest w.pool.key w.nonces expected pool request ∧ .posted call request ∈ w.trace) :
    ProbeSound digest (w.setCall call expected stage') := by
  have hother : ∀ {i expected' pool request}, Requesting (w.setCall call expected stage') i expected' pool request →
      Requesting w i expected' pool request := by
    intro i expected' pool request hcall
    rcases getElem?_set_cases hcall with ⟨-, heq⟩ | ⟨-, hcall⟩
    · exact absurd (StatFSCall.mk.inj heq).2.symm hposts
    · exact hcall
  exact { trace := h.trace, known := h.known, stored := h.stored, answers := h.answers
          requesting := fun hcall => h.requesting (hother hcall)
          apart := fun hi hj => h.apart (hother hi) (hother hj)
          named := fun hmem => by
            rcases List.mem_or_eq_of_mem_set hmem with hmem | rfl
            · exact h.named hmem
            · have hnamed := h.named (List.mem_of_getElem? hget)
              exact hnamed
          awaiting := fun hcall => by
            rcases getElem?_set_cases hcall with ⟨rfl, heq⟩ | ⟨-, hcall⟩
            · obtain ⟨rfl, hstage⟩ := StatFSCall.mk.inj heq
              exact hposted hstage.symm
            · exact h.awaiting hcall }

theorem call (h : ProbeSound digest w) (hname : expected.name = w.pool.name) :
    ProbeSound digest { w with calls := w.calls ++ [{ expected, stage := .reading }] } := by
  have hold : ∀ {i : Nat} {c : StatFSCall}, (w.calls ++ [{ expected, stage := .reading }])[i]? = some c → c.stage ≠ .reading →
      w.calls[i]? = some c := by
    intro i c hget hstage
    rw [List.getElem?_append] at hget
    split at hget
    · exact hget
    · obtain rfl := List.mem_singleton.mp (List.mem_of_getElem? hget)
      exact absurd rfl hstage
  exact { trace := h.trace, known := h.known, stored := h.stored, answers := h.answers
          requesting := fun hcall => h.requesting (hold hcall (by simp))
          apart := fun hi hj => h.apart (hold hi (by simp)) (hold hj (by simp))
          awaiting := fun hcall => h.awaiting (hold hcall (by simp))
          named := fun hmem => by
            rcases List.mem_append.mp hmem with hmem | hmem
            · exact h.named hmem
            · obtain rfl := List.mem_singleton.mp hmem
              exact hname }

end ProbeSound

/-! ### Steps -/

theorem checkCall_sound (h : ProbeSound digest w) {r : PoolReader} {call : Nat} {nonce : String}
    (hget : w.calls[call]? = some { expected, stage := .reading }) (hs : w.checkCall digest r call expected nonce = .ok w') :
    ProbeSound digest w' := by
  obtain ⟨pool, hpool, hs⟩ := bind_ok.mp hs
  obtain ⟨evidence, hevidence, hs⟩ := bind_ok.mp hs
  rw [seq_ok, seq_ok, require_ok, require_ok] at hs
  obtain ⟨-, hnew, hs⟩ := hs
  obtain rfl := pure_ok.mp hs
  have hname := h.named (List.mem_of_getElem? hget)
  obtain ⟨rfl, hkey⟩ := readyPoolForIdentity_stored hname hpool
  obtain ⟨hexpected, -⟩ := matchingEvidence_ok hevidence
  have hgrown : ∀ {expected pool request}, CallDrew digest w.pool.key w.nonces expected pool request →
      CallDrew digest w.pool.key (nonce :: w.nonces) expected pool request :=
    fun hdrew => ⟨hdrew.1, hdrew.2, hdrew.3, List.mem_cons_of_mem _ hdrew.4⟩
  refine { trace := h.trace, stored := h.stored, answers := h.answers, known := fun hid => List.mem_cons_of_mem _ (h.known hid)
           named := fun hmem => ?_, requesting := fun hcall => ?_, apart := fun hi hj hid => ?_, awaiting := fun hcall => ?_ }
  · rcases List.mem_or_eq_of_mem_set hmem with hmem | rfl
    · exact h.named hmem
    · exact hname
  · rcases getElem?_set_cases hcall with ⟨-, heq⟩ | ⟨-, hcall⟩
    · obtain ⟨rfl, hstage⟩ := StatFSCall.mk.inj heq
      obtain ⟨rfl, rfl⟩ := StatFSStage.requesting.inj hstage
      exact ⟨⟨hkey.symm, rfl, hexpected, List.mem_cons_self⟩, fun hid => hnew (h.known hid)⟩
    · exact ⟨hgrown (h.requesting hcall).1, (h.requesting hcall).2⟩
  · -- the new nonce differs from those of the calls that have theirs
    have hdiffers : ∀ {k expected pool request}, Requesting w k expected pool request → request.id ≠ nonce :=
      fun hcall heq => hnew (heq ▸ (h.requesting hcall).1.nonce)
    rcases getElem?_set_cases hi with ⟨hicall, hinew⟩ | ⟨-, hiold⟩ <;> rcases getElem?_set_cases hj with ⟨hjcall, hjnew⟩ | ⟨-, hjold⟩
    · exact hicall.trans hjcall.symm
    · obtain ⟨-, rfl⟩ := StatFSStage.requesting.inj (StatFSCall.mk.inj hinew).2
      exact absurd hid.symm (hdiffers hjold)
    · obtain ⟨-, rfl⟩ := StatFSStage.requesting.inj (StatFSCall.mk.inj hjnew).2
      exact absurd hid (hdiffers hiold)
    · exact h.apart hiold hjold hid
  · rcases getElem?_set_cases hcall with ⟨-, heq⟩ | ⟨-, hcall⟩
    · exact nomatch (StatFSCall.mk.inj heq).2
    · exact ⟨hgrown (h.awaiting hcall).1, (h.awaiting hcall).2⟩

theorem mutatePoolProbe_ok {current written : RegisteredPool} {apply : RegisteredPool → Except String RegisteredPool}
    (h : expected.mutatePoolProbe current apply = .ok written) : apply current = .ok written := by
  rw [RegisteredPool.mutatePoolProbe, seq_ok, seq_ok] at h
  exact h.2.2

/-- A post makes one nonce known to the Node, which no answer can be for yet. -/
theorem post_sound (h : ProbeSound digest w) {call : Nat} {written : RegisteredPool}
    (hget : Requesting w call expected pool request) (hs : pool.requestPoolCapacityProbe request w.pool = .ok written) :
    ProbeSound digest (({ w with pool := written }.setCall call expected (.awaiting pool request)).log (.posted call request)) := by
  have hwritten := mutatePoolProbe_ok hs
  obtain rfl := pure_ok.mp hwritten
  obtain ⟨hdrew, hunseen⟩ := h.requesting hget
  have hother : ∀ {e : ProbeEvent} {id}, Seen w id → e = .posted call request → ∀ {call' request'},
      e = .posted call' request' → request'.id ≠ id := by
    rintro _ id hid rfl call' request' heq rfl
    obtain ⟨-, rfl⟩ := ProbeEvent.posted.inj heq
    exact hunseen hid
  have hseen : ∀ {id}, Seen { w with pool := { w.pool with capacityProbeRequest := some request } } id →
      id = request.id ∨ Seen w id := by
    rintro id (⟨posted, hposted, rfl⟩ | hanswer | hstage)
    · obtain rfl := Option.some.inj hposted
      exact .inl rfl
    · exact .inr (.inr (.inl hanswer))
    · exact .inr (.inr (.inr hstage))
  refine { trace := ⟨trivial, h.trace⟩, named := fun hmem => ?_, known := fun hid => ?_, requesting := fun hcall => ?_
           apart := fun hi hj hid => ?_, awaiting := fun hcall => ?_
           stored := fun hstored => (h.stored hstored).later (hother (.inr (.inl ⟨_, hstored, rfl⟩)) rfl)
           answers := fun hmem => (h.answers hmem).later (hother (.inr (.inr ⟨_, hmem, rfl⟩)) rfl) }
  · rcases hseen hid with rfl | hid
    · exact hdrew.nonce
    · exact h.known hid
  · rcases List.mem_or_eq_of_mem_set hmem with hmem | rfl
    · exact h.named hmem
    · exact congrArg Prod.fst hdrew.expectedKey
  · rcases getElem?_set_cases hcall with ⟨-, heq⟩ | ⟨hne, hcall⟩
    · exact nomatch (StatFSCall.mk.inj heq).2
    · refine ⟨(h.requesting hcall).1, fun hid => ?_⟩
      rcases hseen hid with hsame | hid
      · exact hne (h.apart hcall hget hsame)
      · exact (h.requesting hcall).2 hid
  · rcases getElem?_set_cases hi with ⟨-, heq⟩ | ⟨-, hiold⟩
    · exact nomatch (StatFSCall.mk.inj heq).2
    · rcases getElem?_set_cases hj with ⟨-, heq⟩ | ⟨-, hjold⟩
      · exact nomatch (StatFSCall.mk.inj heq).2
      · exact h.apart hiold hjold hid
  · rcases getElem?_set_cases hcall with ⟨rfl, heq⟩ | ⟨-, hcall⟩
    · obtain ⟨rfl, hstage⟩ := StatFSCall.mk.inj heq
      obtain ⟨rfl, rfl⟩ := StatFSStage.awaiting.inj hstage
      exact ⟨hdrew, List.mem_cons_self⟩
    · exact ⟨(h.awaiting hcall).1, List.mem_cons_of_mem _ (h.awaiting hcall).2⟩

/-- The statistics that a poll returns were measured after the call had posted. -/
theorem poll_justified (h : ProbeSound digest w) {r : PoolReader} {call : Nat}
    {stats : Filesystem} (hget : Awaiting w call expected pool request)
    (hpoll : awaitPoll digest r w.stored pool request = .ok (some stats)) :
    ProbeEvent.Justified digest (.returned call expected stats) w.trace := by
  obtain ⟨hdrew, hposted⟩ := h.awaiting hget
  obtain ⟨answer, hanswer, hid, hevidence, herror, htotal, rfl⟩ := awaitPoll_ok (congrArg Prod.fst hdrew.poolKey) hpoll
  obtain ⟨newer, older, hsplit⟩ := List.append_of_mem hposted
  obtain ⟨measured, hmeasured, hkey, hfor⟩ := h.stored hanswer herror htotal hsplit hid.symm
  obtain ⟨newest, between, rfl⟩ := List.append_of_mem hmeasured
  exact ⟨newest, between, older, measured, request, by simpa using hsplit, hkey.trans hdrew.expectedKey.symm, hdrew.evidence,
    hevidence ▸ hfor⟩

theorem readRequest_sound (h : ProbeSound digest w) {r : PoolReader} {nodeName name uid : String}
    (hs : w.readRequest digest r nodeName name uid = .ok w') : ProbeSound digest w' := by
  rw [ProbeWorld.readRequest, seq_ok, require_ok] at hs
  obtain ⟨hname, hs⟩ := hs
  obtain ⟨pool, hpool, hs⟩ := bind_ok.mp hs
  obtain ⟨rfl, -⟩ := readyPoolForIdentity_stored hname hpool
  obtain ⟨request, hrequest, hs⟩ := bind_ok.mp hs
  rw [seq_ok] at hs
  replace hs := hs.2
  have hseen : Seen w request.id := by
    unfold parseRequest at hrequest
    split at hrequest
    · simp at hrequest
    · rename_i posted hposted
      rw [seq_ok] at hrequest
      obtain rfl := pure_ok.mp hrequest.2
      exact .inl ⟨posted, hposted, rfl⟩
  have hadd : ∀ {stage : AnswerStage}, stage.requestID = request.id → stage.Sound digest w.pool.key w.trace →
      ProbeSound digest { w with answers := stage :: w.answers } := by
    intro stage hid hsound
    refine h.reanswer (fun hmem => ?_) fun hmem => ?_
    · rcases List.mem_cons.mp hmem with rfl | hmem
      · exact hsound
      · exact h.answers hmem
    · rcases List.mem_cons.mp hmem with rfl | hmem
      · exact hid ▸ hseen
      · exact .inr (.inr ⟨_, hmem, rfl⟩)
  split at hs
  · obtain rfl := pure_ok.mp hs
    exact hadd rfl ProbeRequest.failed_fresh
  · rename_i evidence hevidence
    split at hs
    · rename_i hsame
      obtain rfl := pure_ok.mp hs
      exact hadd rfl ⟨rfl, hsame ▸ (matchingEvidence_ok hevidence).2⟩
    · obtain rfl := pure_ok.mp hs
      exact hadd rfl ProbeRequest.failed_fresh

theorem measured_fresh {stats : Filesystem} {key : String × String × String}
    {trace : List ProbeEvent} (hkey : pool.key = key) (hevidence : measurementEvidence digest pool = .ok request.evidence) :
    (request.answered stats).Fresh digest key (.measured pool stats :: trace) := by
  intro _ _ call posted newer older hsplit _
  cases newer with
  | nil => simp at hsplit
  | cons first newer =>
    obtain ⟨rfl, -⟩ := List.cons.inj hsplit
    exact ⟨pool, List.mem_cons_self, hkey, hevidence⟩

theorem record_sound (h : ProbeSound digest w) {index : Nat} {written : RegisteredPool} {result : CapacityProbeResult}
    (hget : w.answers[index]? = some (.recording pool result)) (hs : pool.recordPoolCapacityProbe result w.pool = .ok written) :
    ProbeSound digest { w with pool := written, answers := w.answers.eraseIdx index } := by
  have hwritten := mutatePoolProbe_ok hs
  rw [seq_ok] at hwritten
  obtain rfl := pure_ok.mp hwritten.2
  have hmem := List.mem_of_getElem? hget
  have hback : ∀ {id}, Seen { w with pool := { w.pool with status := { w.pool.status with capacityProbe := some result } } } id →
      Seen w id := by
    rintro id (hrequest | ⟨answer, hanswer, rfl⟩ | hstage)
    · exact .inl hrequest
    · obtain rfl := Option.some.inj hanswer
      exact .inr (.inr ⟨_, hmem, rfl⟩)
    · exact .inr (.inr hstage)
  have hstored : ProbeSound digest
      { w with pool := { w.pool with status := { w.pool.status with capacityProbe := some result } } } :=
    { trace := h.trace, named := h.named, apart := h.apart, awaiting := h.awaiting, answers := h.answers
      known := fun hid => h.known (hback hid)
      requesting := fun hcall => ⟨(h.requesting hcall).1, fun hid => (h.requesting hcall).2 (hback hid)⟩
      stored := fun hanswer => by
        obtain rfl := Option.some.inj hanswer
        exact h.answers hmem }
  exact hstored.leaveAnswer index

theorem ProbeSound.step (h : ProbeSound digest w) {act : ProbeAct} (hs : w.step digest act = .ok w') : ProbeSound digest w' := by
  have hended : ∀ {call expected stage}, w.calls[call]? = some { expected, stage } →
      ProbeSound digest (w.setCall call expected .ended) :=
    fun hget => h.setCall hget (by simp) (by simp)
  cases act with
  | allocate filesystem =>
    obtain rfl := pure_ok.mp hs
    exact ⟨h.trace, h.known, h.named, h.requesting, h.apart, h.awaiting, h.stored, h.answers⟩
  | edit pool peers =>
    rw [ProbeWorld.step, seq_ok, require_ok] at hs
    obtain ⟨⟨hname, huid, hnode, hrequest, hanswer⟩, hs⟩ := hs
    obtain rfl := pure_ok.mp hs
    exact h.repool (by simp [RegisteredPool.key, hname, huid, hnode]) hrequest hanswer
  | setStatus uid nodeName status =>
    rw [ProbeWorld.step] at hs
    obtain ⟨written, hwritten, hs⟩ := bind_ok.mp hs
    obtain rfl := pure_ok.mp hs
    simp only [RegisteredPool.setStatus, seq_ok] at hwritten
    obtain ⟨-, -, -, -, -, -, -, hwritten⟩ := hwritten
    obtain rfl := pure_ok.mp hwritten
    exact h.repool rfl rfl rfl
  | call expected =>
    rw [ProbeWorld.step, seq_ok, require_ok] at hs
    obtain ⟨hname, hs⟩ := hs
    obtain rfl := pure_ok.mp hs
    exact h.call hname
  | check r call nonce =>
    rw [ProbeWorld.step] at hs
    split at hs
    · rename_i expected hget
      exact checkCall_sound h hget hs
    · simp at hs
  | post call =>
    rw [ProbeWorld.step] at hs
    split at hs
    · rename_i expected pool request hget
      obtain ⟨written, hwritten, hs⟩ := bind_ok.mp hs
      obtain rfl := pure_ok.mp hs
      exact post_sound h hget hwritten
    · simp at hs
  | poll r call =>
    rw [ProbeWorld.step] at hs
    split at hs
    · rename_i expected pool request hget
      split at hs
      · obtain rfl := pure_ok.mp hs
        exact h
      · rename_i stats hpoll
        obtain rfl := pure_ok.mp hs
        exact (hended hget).log (poll_justified h hget hpoll) (by simp)
      · obtain rfl := pure_ok.mp hs
        exact hended hget
    · simp at hs
  | leave call =>
    rw [ProbeWorld.step] at hs
    split at hs
    · rename_i expected stage hget
      obtain rfl := pure_ok.mp hs
      exact hended hget
    · simp at hs
  | answer r nodeName name uid => exact readRequest_sound h hs
  | verify r index mount =>
    rw [ProbeWorld.step] at hs
    split at hs
    · rename_i pool request hget
      have hsound := h.answers (List.mem_of_getElem? hget)
      split at hs
      · obtain rfl := pure_ok.mp hs
        exact h.setAnswer hget rfl hsound
      · obtain rfl := pure_ok.mp hs
        exact h.setAnswer hget rfl ProbeRequest.failed_fresh
    · simp at hs
  | measure index failure =>
    rw [ProbeWorld.step] at hs
    split at hs
    · rename_i pool request hget
      obtain ⟨hkey, hevidence⟩ := h.answers (List.mem_of_getElem? hget)
      split at hs
      · obtain rfl := pure_ok.mp hs
        have hlogged : ProbeSound digest (w.log (.measured pool w.filesystem)) := h.log trivial (by simp)
        have hset : ProbeSound digest ((w.log (.measured pool w.filesystem)).setAnswer index (.confirming pool request w.filesystem)) :=
          hlogged.setAnswer hget rfl (measured_fresh hkey hevidence)
        exact hset
      · obtain rfl := pure_ok.mp hs
        exact h.setAnswer hget rfl ProbeRequest.failed_fresh
    · simp at hs
  | confirm r index mount =>
    rw [ProbeWorld.step] at hs
    split at hs
    · rename_i pool request stats hget
      have hfresh := h.answers (List.mem_of_getElem? hget)
      split at hs
      · obtain rfl := pure_ok.mp hs
        exact h.setAnswer hget rfl hfresh
      · obtain rfl := pure_ok.mp hs
        exact h.setAnswer hget rfl ProbeRequest.failed_fresh
    · simp at hs
  | record index =>
    rw [ProbeWorld.step] at hs
    split at hs
    · rename_i pool result hget
      obtain ⟨written, hwritten, hs⟩ := bind_ok.mp hs
      obtain rfl := pure_ok.mp hs
      exact record_sound h hget hwritten
    · simp at hs
  | leaveAnswer index =>
    obtain rfl := pure_ok.mp hs
    exact h.leaveAnswer index

theorem ProbeWorld.Initial.sound (h : w.Initial) : ProbeSound digest w where
  trace := h.trace ▸ trivial
  known hid := by
    rcases hid with ⟨request, hrequest, rfl⟩ | ⟨answer, hanswer, rfl⟩ | ⟨stage, hstage, -⟩
    · exact h.request request hrequest
    · exact h.answer answer hanswer
    · simp [h.answers] at hstage
  named := by simp [h.calls]
  requesting := by simp [Requesting, h.calls]
  apart := by simp [Requesting, h.calls]
  awaiting := by simp [Awaiting, h.calls]
  stored _ := by
    intro _ _ call request newer older hsplit
    simp [h.trace] at hsplit
  answers := by simp [h.answers]

theorem ProbeRun.sound {past : List ProbeWorld} (hr : ProbeRun digest (w :: past)) : ProbeSound digest w := by
  have hall : ∀ u ∈ w :: past, ProbeSound digest u := by
    refine Run.forall_mem (fun u hu => hu.sound) ?_ hr
    intro s t past act _ ih hs
    exact (ih s List.mem_cons_self).step (Run.onHead_cons.mp hs)
  exact hall w List.mem_cons_self

/-! ### What was measured -/

theorem ProbeWorld.step_trace {act : ProbeAct} (hs : w.step digest act = .ok w') :
    w'.trace = w.trace ∨ ∃ e, w'.trace = e :: w.trace ∧ ∀ {pool stats}, e = .measured pool stats → stats = w.filesystem := by
  cases act with
  | post call =>
    rw [ProbeWorld.step] at hs
    split at hs
    · obtain ⟨written, -, hs⟩ := bind_ok.mp hs
      obtain rfl := pure_ok.mp hs
      exact .inr ⟨_, rfl, by simp⟩
    · simp at hs
  | poll r call =>
    rw [ProbeWorld.step] at hs
    repeat' split at hs
    · obtain rfl := pure_ok.mp hs
      exact .inl rfl
    · obtain rfl := pure_ok.mp hs
      exact .inr ⟨_, rfl, by simp⟩
    · obtain rfl := pure_ok.mp hs
      exact .inl rfl
    · simp at hs
  | measure index failure =>
    rw [ProbeWorld.step] at hs
    repeat' split at hs
    · obtain rfl := pure_ok.mp hs
      exact .inr ⟨_, rfl, by simp⟩
    · obtain rfl := pure_ok.mp hs
      exact .inl rfl
    · simp at hs
  | _ =>
    left
    simp only [ProbeWorld.step, checkCall, readRequest] at hs
    grind [bind_ok, require_ok, pure_ok, throw_ok, setCall, setAnswer]

/-- What was measured was the state of the filesystem in an earlier world. -/
theorem ProbeRun.measured_in {history : List ProbeWorld} (hr : ProbeRun digest history) :
    ∀ w ∈ history.head?, ∀ {later earlier pool stats}, w.trace = later ++ .measured pool stats :: earlier →
      ∃ u ∈ history, u.filesystem = stats ∧ u.trace = earlier := by
  induction hr with
  | start hinitial =>
    rintro w ⟨⟩ later earlier pool stats htrace
    simp [hinitial.trace] at htrace
  | @next w t past act _ hstep ih =>
    rintro _ ⟨⟩ later earlier pool stats htrace
    have holder {rest : List ProbeEvent} (h : w.trace = rest ++ .measured pool stats :: earlier) :
        ∃ u ∈ t :: w :: past, u.filesystem = stats ∧ u.trace = earlier := by
      obtain ⟨u, hu, hfound⟩ := ih w rfl h
      exact ⟨u, List.mem_cons_of_mem _ hu, hfound⟩
    rcases ProbeWorld.step_trace (Run.onHead_cons.mp hstep) with hsame | ⟨e, htop, hreads⟩
    · exact holder (hsame ▸ htrace)
    · rw [htop] at htrace
      cases later with
      | nil =>
        obtain ⟨rfl, rfl⟩ := List.cons.inj htrace
        exact ⟨w, by simp, (hreads rfl).symm, rfl⟩
      | cons event later => exact holder (List.cons.inj htrace).2

/-- Statistics that a call returns from an answer are the state of the filesystem after the call posted its own nonce, read by
    the Node for the Pool and the evidence that the call was made with. -/
theorem probe_fresh {past : List ProbeWorld} (hr : ProbeRun digest (w :: past)) {call : Nat}
    {stats : Filesystem} {later earlier : List ProbeEvent} (hreturned : w.trace = later ++ .returned call expected stats :: earlier) :
    ∃ newer between older pool request,
      earlier = newer ++ .measured pool stats :: (between ++ .posted call request :: older) ∧
        (∃ u ∈ w :: past, u.filesystem = stats ∧ u.trace = between ++ .posted call request :: older) ∧
        (pool.name = expected.name ∧ pool.uid = expected.uid ∧ pool.nodeName = expected.nodeName) ∧
        measurementEvidence digest expected = .ok request.evidence ∧ measurementEvidence digest pool = .ok request.evidence := by
  have htraced := (ProbeRun.sound hr).trace
  rw [hreturned] at htraced
  obtain ⟨newer, between, older, pool, request, rfl, hkey, hevidence⟩ := htraced.at
  obtain ⟨hname, hrest⟩ := Prod.mk.inj hkey
  obtain ⟨huid, hnode⟩ := Prod.mk.inj hrest
  have hmeasured : w.trace = (later ++ .returned call expected stats :: newer) ++
      .measured pool stats :: (between ++ .posted call request :: older) := by simp [hreturned]
  exact ⟨newer, between, older, pool, request, rfl, ProbeRun.measured_in hr w rfl hmeasured, ⟨hname, huid, hnode⟩, hevidence⟩

def probedPool : RegisteredPool := fixedPool "pool" "/data" "" 0

def sampleEvidence : String := String.ofList (List.replicate 64 '0')

def sampleRequest : ProbeRequest := { id := String.ofList (List.replicate 32 'a'), evidence := sampleEvidence }

def freeSpace : Filesystem := { totalBytes := 10, availableBytes := 4, availableInodes := 2 }

/-- The filesystem is filled after the call has posted, and once more after the Node has answered. -/
def probeScript : List ProbeAct :=
  [.call probedPool, .check sampleReader 0 sampleRequest.id, .post 0, .allocate freeSpace,
    .answer sampleReader "node" "pool" "pool", .verify sampleReader 0 (.ok ()), .measure 0 none, .confirm sampleReader 0 (.ok ()),
    .record 0, .allocate { freeSpace with availableBytes := 1 }, .poll sampleReader 0]

def probeWorld : ProbeWorld where
  pool := probedPool
  peers := []
  filesystem := { freeSpace with availableBytes := 9 }
  calls := []
  answers := []
  nonces := []
  trace := []

def probeHistory : List ProbeWorld := Run.replay (fun w => w.step fun _ => sampleEvidence) probeWorld [] probeScript

theorem probe_fresh_answered : ∃ w past earlier, probeHistory = w :: past ∧
    w.trace = .returned 0 probedPool freeSpace :: earlier ∧ w.filesystem ≠ freeSpace ∧ ∃ u ∈ past, u.filesystem = freeSpace ∧
      ∃ request, .posted 0 request ∈ u.trace ∧ measurementEvidence (fun _ => sampleEvidence) probedPool = .ok request.evidence := by
  have hlast : (probeHistory.head?.any fun w => decide (w.trace.head? = some (.returned 0 probedPool freeSpace) ∧
      w.filesystem ≠ freeSpace)) = true := by
    decide +kernel
  obtain ⟨w, past, hl, hw⟩ := Run.exists_head hlast
  obtain ⟨htop, hfilled⟩ := of_decide_eq_true hw
  obtain ⟨earlier, htrace⟩ := List.head?_eq_some_iff.mp htop
  have hinitial : probeWorld.Initial :=
    ⟨rfl, rfl, rfl, by simp [probeWorld, probedPool, fixedPool], by simp [probeWorld, probedPool, fixedPool]⟩
  have hr : ProbeRun (fun _ => sampleEvidence) (w :: past) := Run.replay_run (.start hinitial) hl
  obtain ⟨newer, between, older, pool, request, -, ⟨u, hu, hread, hposted⟩, -, hevidence, -⟩ :=
    probe_fresh hr (show w.trace = [] ++ _ :: _ from htrace)
  have hearlier : u ∈ past := (List.mem_cons.mp hu).resolve_left fun h => hfilled (h ▸ hread)
  exact ⟨w, past, earlier, hl, htrace, hfilled, u, hearlier, hread, request, by simp [hposted], hevidence⟩

end ShiftPV
