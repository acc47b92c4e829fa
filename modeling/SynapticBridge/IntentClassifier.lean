import SynapticBridge.CorrectionPatterns
import SynapticBridge.FirstMaximum
import SynapticBridge.OrderedDict
import SynapticBridge.PythonText
import SynapticBridge.Scatter

/-! The intent classifier. A text becomes a vector of term frequencies, one entry for each
bucket of token hashes, and a tool is chosen by the cosine of its description. -/

/-- The embeddings of the tools under their names. -/
structure IntentClassifier (K : Type) where
  toolEmbeddings : OrderedDict.Dict String (List K)

namespace IntentClassifier

open Domain Cosine CorrectionPatterns OrderedDict PythonText FirstMaximum Scatter

/-- `str.lower` and the number that `hashlib.md5` makes of a token. -/
structure TextPrimitives where
  lower : Text → Text
  md5 : Text → ℕ

def WORD_DIGESTS : List (String × ℕ) :=
  [("read", 314601653410106281191347235513267929438),
    ("file", 186745360547473680193747647219479088812),
    ("content", 204718731211921322409515946086939526485),
    ("load", 314098236550633516627876674868882197788),
    ("text", 38144274299949035767652076432594491601),
    ("from", 289159173699889222037558937124601355324),
    ("write", 318613097242300763388794138024671916782),
    ("save", 89681953931466415099213813258854009174),
    ("create", 158064142748273591590132150396276187589),
    ("modify", 190441165575018908502499816404175475098),
    ("delete", 12767639889741927927269837594957835108),
    ("remove", 20485757795585844480856932392249332590),
    ("run", 219577223705280918989586005868139564534),
    ("command", 39610369484485813823911594618114707567),
    ("execute", 313764410284468935743301835715976562601),
    ("shell", 49938406700257988712654720137410862737),
    ("bash", 283732184244328652855917803218612833897),
    ("terminal", 316239916819880078199920295312721852603),
    ("make", 12781807715119410301391598723682590242),
    ("request", 21720585136155926161634417061775183431),
    ("http", 170770003672135918754327698599568910584),
    ("api", 183919697332970837276392160200203806890),
    ("call", 111291232578748476005524760230664050861),
    ("web", 49719607762641323567966450470760093853),
    ("fetch", 110928296815900733207512988335592833184),
    ("search", 8854240722463883999357733915721542037),
    ("query", 36038595454190358409134516965385798123),
    ("find", 311159061335564316676805578631625848820),
    ("lookup", 251998393294646512478773847204181270933),
    ("database", 23764794816852927897371381344393079612),
    ("sql", 229107273788333000804107508050031914026),
    ("select", 204137798080560659488646498087047515970),
    ("data", 188041611063492600696317361555123480284),
    ("insert", 298906884995450710042050700248883573440),
    ("update", 78109030110639608319945975972631579596),
    ("send", 49523340914177227049505941971144620176),
    ("email", 16635905889798499952920583926942826172),
    ("notification", 17266440439773387987761221042706028317),
    ("message", 160707774103897862648654094013556220851),
    ("event", 86531646560352139740324394777215313421),
    ("calendar", 213879523272743624311413073597389955347),
    ("meeting", 282500055372787649705684305631350471215),
    ("schedule", 161627547691762814633717305146054232922),
    ("deploy", 10048412313623415593333318686238798813)]

/-- Lower case of ASCII letters, and the digests of the words of the default descriptions. -/
def defaultWords : TextPrimitives where
  lower := PythonText.lower
  md5 token := ((WORD_DIGESTS.find? fun e => e.1.toList = token).map Prod.snd).getD 0

def SEPARATORS : Text := ".,!?;:()[]\x7b\x7d\"'-".toList

def tokenize (py : TextPrimitives) (text : Text) : List Text :=
  let text := SEPARATORS.foldl (fun text char => replace char ' ' text) (py.lower text)
  (split text).filter fun t => !t.isEmpty

def tokenCounts (tokens : List Text) : Dict Text ℕ :=
  tokens.foldl (fun counts token => counts.set token ((counts.get? token).getD 0 + 1)) .empty

/-- The entry of the vector that belongs to a token. -/
def bucket (py : TextPrimitives) (token : Text) : ℕ := py.md5 token % EMBEDDING_DIM

variable {K : Type} [Field K]

/-- `embedding[idx] = tf` for the distinct tokens, in the order in which they first occur. -/
def textToEmbedding (py : TextPrimitives) (text : Text) : List K :=
  let tokens := tokenize py text
  if tokens.isEmpty then List.replicate EMBEDDING_DIM 0
  else
    scatter (fun e : Text × ℕ => bucket py e.1) (fun e => (e.2 : K) / (tokens.length : K))
      (tokenCounts tokens).entries (List.replicate EMBEDDING_DIM 0)

/-- `_cosine_similarity`; `math.sqrt` is the power of one half. -/
def cosineSimilarity [LinearOrder K] [PyMath K] (vec1 vec2 : List K) : K :=
  if vec1.length ≠ vec2.length then 0
  else
    let dotProduct := dot vec1 vec2
    let mag1 := PyMath.powHalf (normSq vec1)
    let mag2 := PyMath.powHalf (normSq vec2)
    if mag1 = 0 ∨ mag2 = 0 then 0 else dotProduct / (mag1 * mag2)

def TOOL_DESCRIPTIONS : List (String × Text) :=
  [("filesystem.read", "read file content load text from file".toList),
    ("filesystem.write", "write save create modify file content".toList),
    ("filesystem.delete", "delete remove file".toList),
    ("bash.execute", "run command execute shell bash terminal".toList),
    ("http.request", "make request http api call web fetch".toList),
    ("search.execute", "search query find lookup".toList),
    ("database.query", "query database sql select fetch data".toList),
    ("database.write", "insert update database sql write".toList),
    ("email.send", "send email notification message".toList),
    ("calendar.create", "create event calendar meeting schedule".toList)]

def addTool (py : TextPrimitives) (c : IntentClassifier K) (toolName : String)
    (description : Text) : IntentClassifier K :=
  ⟨c.toolEmbeddings.set toolName (textToEmbedding py description)⟩

/-- `__init__`, which enters the default tools. -/
def init (py : TextPrimitives) : IntentClassifier K :=
  TOOL_DESCRIPTIONS.foldl (fun c e => addTool py c e.1 e.2) ⟨.empty⟩

section Embedding

variable {py : TextPrimitives} {text : Text} {i : ℕ}

/-- A token is a word: not empty, and without white space and separators. -/
theorem mem_tokenize {token : Text} (h : token ∈ tokenize py text) :
    token ≠ [] ∧ ∀ c ∈ token, isSpace c = false ∧ c ∉ SEPARATORS := by
  obtain ⟨hne, hclean⟩ := mem_split (List.mem_filter.mp h).1
  have hblank : ' ' ∉ SEPARATORS := by decide
  exact ⟨hne, fun c hc => (hclean c hc).imp_right (notMem_of_replaced hblank)⟩

example : tokenize defaultWords "Search (look-up), 'deploy'!".toList =
    ["search".toList, "look".toList, "up".toList, "deploy".toList] := by decide

theorem bucket_lt (py : TextPrimitives) (token : Text) : bucket py token < EMBEDDING_DIM :=
  Nat.mod_lt _ (by decide)

/-- A token that occurs is counted, and no other is. -/
theorem get?_tokenCounts (tokens : List Text) (token : Text) :
    (tokenCounts tokens).get? token =
      if token ∈ tokens then some (tokens.count token) else none := by
  induction tokens using List.reverseRecOn with
  | nil => rfl
  | append_singleton tokens last ih =>
    have hstep : tokenCounts (tokens ++ [last]) = (tokenCounts tokens).set last
        (((tokenCounts tokens).get? last).getD 0 + 1) := by
      simp [tokenCounts, List.foldl_append]
    rw [hstep, Dict.get?_set, List.count_append]
    by_cases hlast : token = last
    · subst hlast
      by_cases hmem : token ∈ tokens
      · simp [ih, hmem]
      · simp [ih, hmem, List.count_eq_zero_of_not_mem hmem]
    · simp [ih, hlast, Ne.symm hlast]

theorem mem_tokenCounts {tokens : List Text} {token : Text} {n : ℕ} :
    (token, n) ∈ (tokenCounts tokens).entries ↔ token ∈ tokens ∧ n = tokens.count token := by
  rw [← Dict.get?_eq_some, get?_tokenCounts]
  split_ifs with hmem
  · simp [hmem, eq_comm]
  · simp [hmem]

@[simp] theorem length_textToEmbedding (py : TextPrimitives) (text : Text) :
    (textToEmbedding py text : List K).length = EMBEDDING_DIM := by
  simp only [textToEmbedding]
  split_ifs
  · exact List.length_replicate
  · rw [length_scatter, List.length_replicate]

/-- An entry is zero, if no token belongs to it, or the frequency of one of its tokens. -/
theorem textToEmbedding_entry (hasToken : tokenize py text ≠ []) (hi : i < EMBEDDING_DIM) :
    (hits (bucket py) (tokenize py text) i = 0 ∧
      (textToEmbedding py text : List K)[i]? = some 0) ∨
    ∃ token ∈ tokenize py text, bucket py token = i ∧ (textToEmbedding py text : List K)[i]? =
      some (((tokenize py text).count token : K) / ((tokenize py text).length : K)) := by
  simp only [textToEmbedding, List.isEmpty_iff, if_neg hasToken]
  by_cases hhit : ∃ token ∈ tokenize py text, bucket py token = i
  · obtain ⟨token, htoken, hindex⟩ := hhit
    have hzeros : i < (List.replicate EMBEDDING_DIM (0 : K)).length := by
      rwa [List.length_replicate]
    have hcounted := mem_tokenCounts.mpr ⟨htoken, Eq.refl ((tokenize py text).count token)⟩
    have hsent : ∃ e ∈ (tokenCounts (tokenize py text)).entries, bucket py e.1 = i :=
      ⟨_, hcounted, hindex⟩
    obtain ⟨e, he, hei, hvalue⟩ := scatter_hit hzeros hsent
    obtain ⟨hmem, hcount⟩ := mem_tokenCounts.mp he
    exact .inr ⟨e.1, hmem, hei, by rw [hvalue, hcount]⟩
  · push Not at hhit
    refine .inl ⟨hits_eq_zero.mpr hhit, ?_⟩
    rw [scatter_miss fun e he => hhit e.1 (mem_tokenCounts.mp he).1]
    simp [hi]

end Embedding

section Classify

variable [LinearOrder K] [PyMath K]

/-- The loop over the tools, which starts from no tool and the score zero. -/
def bestTool (c : IntentClassifier K) (embedding : List K) : Option String × K :=
  scan (none, 0) (c.toolEmbeddings.entries.map fun e => (e.1, cosineSimilarity embedding e.2))

/-- `best_tool or "unknown"`, which the empty name does not pass either. -/
def orUnknown (tool : Option String) : String :=
  match tool with
  | none => "unknown"
  | some name => if name = "" then "unknown" else name

def matchTool (c : IntentClassifier K) (embedding : List K) : String × K :=
  let best := bestTool c embedding
  (orUnknown best.1, best.2)

def classifyIntent (py : TextPrimitives) (c : IntentClassifier K) (intentText : Text) :
    String × K :=
  let best := bestTool c (textToEmbedding py intentText)
  (orUnknown best.1, min (best.2 * ((3 : ℕ) / (2 : ℕ) : K)) 1)

end Classify

end IntentClassifier
