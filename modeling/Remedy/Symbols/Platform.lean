/-!
# Known library types

The types of a few packages that are not part of a project, so that
an import of all names of such a package, and the implicit one of
`java.lang`, can be answered. A package outside the catalog is unknown,
never empty.
-/

namespace Remedy

namespace Platform

/-- The types of `java.lang`. -/
def javaLang : List String :=
  ["AutoCloseable", "Boolean", "Byte", "CharSequence", "Character", "Class", "ClassLoader",
   "ClassNotFoundException", "CloneNotSupportedException", "Cloneable", "Comparable",
   "Deprecated", "Double", "Enum", "Error", "Exception", "Float", "FunctionalInterface",
   "IllegalArgumentException", "IllegalStateException", "IndexOutOfBoundsException",
   "Integer", "InterruptedException", "Iterable", "Long", "Math", "NullPointerException",
   "Number", "NumberFormatException", "Object", "Override", "Process", "ProcessBuilder",
   "Record", "Runnable", "Runtime", "RuntimeException", "SafeVarargs", "SecurityException",
   "Short", "StrictMath", "String", "StringBuffer", "StringBuilder", "SuppressWarnings",
   "System", "Thread", "ThreadLocal", "Throwable", "UnsupportedOperationException", "Void"]

/-- The types of `java.util`. -/
def javaUtil : List String :=
  ["AbstractList", "AbstractMap", "ArrayDeque", "ArrayList", "Arrays", "Base64", "BitSet",
   "Calendar", "Collection", "Collections", "Comparator", "Date", "Deque", "EnumMap",
   "EnumSet", "HashMap", "HashSet", "Hashtable", "Iterator", "LinkedHashMap", "LinkedHashSet",
   "LinkedList", "List", "ListIterator", "Locale", "Map", "NavigableMap",
   "NoSuchElementException", "Objects", "Optional", "OptionalInt", "PriorityQueue",
   "Properties", "Queue", "Random", "Scanner", "Set", "SortedMap", "SortedSet", "Stack",
   "StringJoiner", "Timer", "TreeMap", "TreeSet", "UUID", "Vector"]

/-- The types of `java.util.concurrent`. -/
def javaUtilConcurrent : List String :=
  ["Callable", "CompletableFuture", "ConcurrentHashMap", "ConcurrentMap", "CountDownLatch",
   "ExecutionException", "Executor", "ExecutorService", "Executors", "Future",
   "ThreadLocalRandom", "TimeUnit", "TimeoutException"]

/-- The types of `java.security`. -/
def javaSecurity : List String :=
  ["AlgorithmParameters", "GeneralSecurityException", "InvalidKeyException", "Key",
   "KeyFactory", "KeyPair", "KeyPairGenerator", "KeyStore", "MessageDigest",
   "NoSuchAlgorithmException", "PrivateKey", "Provider", "PublicKey", "SecureRandom",
   "Security", "Signature"]

/-- The types of `javax.net.ssl`. -/
def javaxNetSsl : List String :=
  ["HostnameVerifier", "HttpsURLConnection", "KeyManager", "KeyManagerFactory", "SSLContext",
   "SSLEngine", "SSLParameters", "SSLServerSocketFactory", "SSLSession", "SSLSocket",
   "SSLSocketFactory", "TrustManager", "TrustManagerFactory", "X509TrustManager"]

/-- The types of `java.io`. -/
def javaIo : List String :=
  ["BufferedInputStream", "BufferedOutputStream", "BufferedReader", "BufferedWriter",
   "ByteArrayInputStream", "ByteArrayOutputStream", "Closeable", "File", "FileInputStream",
   "FileNotFoundException", "FileOutputStream", "FileReader", "FileWriter", "IOException",
   "InputStream", "InputStreamReader", "ObjectInputStream", "ObjectOutputStream",
   "OutputStream", "OutputStreamWriter", "PrintStream", "PrintWriter", "Reader",
   "Serializable", "StringReader", "StringWriter", "UncheckedIOException", "Writer"]

/-- The types of `java.nio.file`. -/
def javaNioFile : List String :=
  ["Files", "Path", "Paths", "StandardOpenOption"]

/-- The types of `io.jsonwebtoken`. -/
def ioJsonwebtoken : List String :=
  ["Claims", "Header", "Jws", "Jwt", "JwtBuilder", "JwtException", "JwtParser",
   "JwtParserBuilder", "Jwts", "SignatureAlgorithm", "SignatureException"]

/-- The packages of the catalog with their types. -/
def catalog : List (String × List String) :=
  [("io.jsonwebtoken", ioJsonwebtoken),
   ("java.io", javaIo),
   ("java.lang", javaLang),
   ("java.nio.file", javaNioFile),
   ("java.security", javaSecurity),
   ("java.util", javaUtil),
   ("java.util.concurrent", javaUtilConcurrent),
   ("javax.net.ssl", javaxNetSsl)]

/-- Whether a package has a type, if the package is known. -/
def contains? (package name : String) : Option Bool :=
  (catalog.lookup package).map fun types => types.contains name

end Platform

end Remedy
