import Roteiro.Proofs.Session.History

/-!
# Receivers

A method that is looked up on an instance gets a frame which holds the instance, and each call of
the method takes place inside of that frame. So the receiver is found wherever it is used in the
method: in blocks and loops, in functions and lambdas inside, and in those that are called when the
method has long returned. In a class inside of a method, it is the receiver of the inner method.

Nothing changes a receiver. A source cannot declare its name or assign to it, and no frame holds the
receiver of two lookups.

* `Since.receiver`: the receiver is the instance that the method around was looked up on.
-/

namespace Roteiro

open Scope Machine

namespace Session

/-- The innermost method around an occurrence, which only has to be given by its number. -/
def methodOf (past : List Played) (id : Nat) : Option FunctionDecl :=
  (surroundings past id).bind fun place => methodIn place.1

/-- `Receiver past m id f r`: where the machine `m` reads the receiver by the occurrence `id`, it is
inside of a call of the method `f`, and `r` is the instance on which `f` was looked up for that
call. -/
structure Receiver (past : List Played) (m : Machine) (id : Nat) (f : FunctionDecl)
    (r : Ref .instances) : Prop where
  /-- The occurrence stands in the method. -/
  inside : id ∈ f.ids
  /-- The frame of the call lies in the frame of the lookup, and the table leads there. -/
  frames : ∃ d C F, m.depths[id]? = some (d + 1) ∧ (m.store.path m.current)[d]? = some C ∧
    (m.store.path m.current)[d + 1]? = some F ∧ Opened (Visited past) C (.call f) ∧
    Received (Visited past) F r f ∧
    -- the frame is that of no other lookup
    ∀ r' f', Received (Visited past) F r' f' → r' = r ∧ f' = f

/-- No frame holds the receivers of two lookups. -/
theorem Settled.received_unique {s : Session} {past : List Played} (h : Settled s past)
    {F : Ref .frames} {r r' : Ref .instances} {f f' : FunctionDecl}
    (hr : Received (Visited past) F r f) (hr' : Received (Visited past) F r' f') :
    r' = r ∧ f' = f := by
  obtain ⟨M, c, hM, hreceives, rfl⟩ := hr
  obtain ⟨M', c', hM', hreceives', rfl⟩ := hr'
  cases h.opening_unique hM hM' hreceives.opening hreceives'.opening
  obtain ⟨rfl, rfl⟩ := hreceives'.unique hreceives
  exact ⟨rfl, rfl⟩

/-- A receiver that is found in its frame is the value of the occurrence. -/
theorem eval_self {m : Machine} {id d : Nat} {keyword : Token} {F : Ref .frames} {v : Value}
    (hspelled : keyword.lexeme = selfName) (hd : m.depths[id]? = some d)
    (hF : (m.store.path m.current)[d]? = some F)
    (hself : (m.store.frame F).bindings.find? selfName = some v) (n : Nat) :
    eval (n + 1) (.self id keyword) m = .ok v m := by
  have hancestor : m.store.ancestor m.current d = F := by
    simp only [Store.ancestor, hF]
  have hfound : m.store.lookupAt? m.current d keyword.lexeme = some v := by
    rw [Store.lookupAt?, hancestor, hspelled]
    exact hself
  unfold eval
  simp only [readName, hd, hfound]

theorem Settled.finds_self {s : Session} {past : List Played} (h : Settled s past) {n id : Nat}
    {keyword : Token} {m : Machine} (hM : Visited past ⟨n + 1, .eval (.self id keyword), m⟩)
    (hspelled : keyword.lexeme = selfName) :
    ∃ f r, methodOf past id = some f ∧ Receiver past m id f r ∧
      eval (n + 1) (.self id keyword) m = .ok (.instanceRef r) m := by
  obtain ⟨Γ, ⟨hrecorded, hreceiver⟩, hfits⟩ := (h.inPlace _ hM).code
  obtain ⟨e, he⟩ := Option.isSome_iff_exists.mp hreceiver
  have hdepth : m.depths[id]? = some e := hrecorded.depth.trans he
  obtain ⟨Γ₁, L, f, Γ₂, rfl, hsite, rfl, hmethod⟩ := hrecorded.nested.inMethod he
  -- the scope of the method and around it the scope of its receiver, and their frames
  have hcall : (Γ₁ ++ L :: .receiver f :: Γ₂)[Γ₁.length]? = some L := by simp
  have haround : (Γ₁ ++ L :: .receiver f :: Γ₂)[Γ₁.length + 1]? = some (.receiver f) := by simp
  obtain ⟨C, hC, -, hopened, -, -⟩ := hfits.frame hcall
  obtain ⟨F, hF, -, -, -, hreceived⟩ := hfits.frame haround
  obtain ⟨r, hr, hself⟩ := hreceived f rfl
  have hinside : id ∈ f.ids :=
    (hrecorded.sound (.receiver f) (by simp)).holds (.receiver f) rfl
  refine ⟨f, r, ?_, ⟨hinside, Γ₁.length, C, F, hdepth, hC, hF, hopened _ hsite, hr, ?_⟩,
    eval_self hspelled hdepth hF hself n⟩
  · rw [methodOf, hrecorded.around]
    exact hmethod
  · exact fun r' f' hr' => h.received_unique hr hr'

/-- **The receiver is the instance that the method was looked up on.** Wherever the receiver is read
in a session, it is found: it is the instance on which the innermost method around the occurrence
was looked up for the call that is going on. No evaluation binds the name of the receiver, and what
it is bound to in a frame stays the same during every evaluation. -/
theorem Since.receiver {host : Host} {s : Session} {past : List Played} (h : Since host s past) :
    (∀ n id keyword m, Visited past ⟨n + 1, .eval (.self id keyword), m⟩ →
      keyword.lexeme = selfName →
      ∃ f r, methodOf past id = some f ∧ Receiver past m id f r ∧
        eval (n + 1) (.self id keyword) m = .ok (.instanceRef r) m) ∧
    ∀ M, Visited past M → selfName ∉ M.task.binds ∧
      ∀ F : Ref .frames, F.index < M.machine.store.frames.size →
        (M.final.store.frame F).bindings.find? selfName =
          (M.machine.store.frame F).bindings.find? selfName := by
  have hsettled := h.settled
  refine ⟨fun n id keyword m hM hspelled => hsettled.finds_self hM hspelled, fun M hM => ?_⟩
  have hplace := hsettled.inPlace M hM
  have hcontinues := hplace.continues fun hV hin => hV.within hin
  exact ⟨fun hself => hplace.names selfName hself rfl, hcontinues.grows.receiver⟩

/-- A lambda in a method that is called when the method has returned. -/
def escaping : String := "classe A { m() { retorne () => meu; } } A().m()();"

def escapingTokens : List Token :=
  [⟨.classKw, "classe", 1⟩, ⟨.identifier, "A", 1⟩, ⟨.leftBrace, "\x7b", 1⟩, ⟨.identifier, "m", 1⟩,
   ⟨.leftParen, "(", 1⟩, ⟨.rightParen, ")", 1⟩, ⟨.leftBrace, "\x7b", 1⟩, ⟨.returnKw, "retorne", 1⟩,
   ⟨.leftParen, "(", 1⟩, ⟨.rightParen, ")", 1⟩, ⟨.arrow, "=>", 1⟩, ⟨.selfKw, "meu", 1⟩,
   ⟨.semicolon, ";", 1⟩, ⟨.rightBrace, "\x7d", 1⟩, ⟨.rightBrace, "\x7d", 1⟩, ⟨.identifier, "A", 1⟩,
   ⟨.leftParen, "(", 1⟩, ⟨.rightParen, ")", 1⟩, ⟨.dot, ".", 1⟩, ⟨.identifier, "m", 1⟩,
   ⟨.leftParen, "(", 1⟩, ⟨.rightParen, ")", 1⟩, ⟨.leftParen, "(", 1⟩, ⟨.rightParen, ")", 1⟩,
   ⟨.semicolon, ";", 1⟩, ⟨.endOfInput, "", 1⟩]

/-- The method `m`, whose body makes the lambda. -/
def escapingMethod : FunctionDecl :=
  ⟨some ⟨.identifier, "m", 1⟩, [], [.result ⟨.returnKw, "retorne", 1⟩ (some (.lambda ⟨none, [],
    [.result ⟨.arrow, "=>", 1⟩ (some (.self 0 ⟨.selfKw, "meu", 1⟩))]⟩))]⟩

def escapingProgram : List Stmt :=
  let call (e : Expr) : Expr := .call e ⟨.rightParen, ")", 1⟩ []
  [.classDecl ⟨.identifier, "A", 1⟩ [escapingMethod],
    .expression (call (call (.get (call (.var 1 ⟨.identifier, "A", 1⟩)) ⟨.identifier, "m", 1⟩)))]

/-- The session in which it is run. -/
def escapingSession : Session :=
  let started := Session.start (.withInput [])
  ⟨{ started.machine with depths := (Scope.resolve escapingProgram ∅).depths }, 2⟩

theorem tokenize_escaping : Token.tokenize escaping = (escapingTokens, []) := by
  decide +kernel

theorem accepts_escaping :
    (Session.start (.withInput [])).Accepts escaping escapingProgram escapingSession where
  scanned := by rw [tokenize_escaping]
  parsed := by
    rw [tokenize_escaping]
    rfl
  accepted := by decide +kernel
  ready := by
    rw [tokenize_escaping]
    rfl

/-- The lambda still finds the instance that `m` was looked up on. -/
theorem escaping_receiver :
    ∃ m r, Visited [⟨escapingProgram, 12, escapingSession.machine⟩]
        ⟨6, .eval (.self 0 ⟨.selfKw, "meu", 1⟩), m⟩ ∧
      Receiver [⟨escapingProgram, 12, escapingSession.machine⟩] m 0 escapingMethod r ∧
      eval 6 (.self 0 ⟨.selfKw, "meu", 1⟩) m = .ok (.instanceRef r) m := by
  have hsince := Since.accepted .start 12 (d := .none) rfl accepts_escaping
  have hcall : Reached 12 escapingProgram escapingSession.machine ⟨10, _, _⟩ :=
    .later rfl (.here (.step (.call rfl rfl) (.step .expression (.refl _))))
  have hbody := (hcall.within (.callFunction rfl)).within .body
  have hself := (hbody.within .first).within .result
  have hM : Visited [⟨escapingProgram, 12, escapingSession.machine⟩]
      ⟨6, .eval (.self 0 ⟨.selfKw, "meu", 1⟩), _⟩ := ⟨_, List.mem_cons_self, hself⟩
  obtain ⟨f, r, hmethod, hreceiver, heval⟩ := hsince.receiver.1 _ _ _ _ hM rfl
  have hf : methodOf [⟨escapingProgram, 12, escapingSession.machine⟩] 0 = some escapingMethod := rfl
  cases hf.symm.trans hmethod
  exact ⟨_, r, hM, hreceiver, heval⟩

end Session

end Roteiro
