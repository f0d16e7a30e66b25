/-!
# The first configuration

The configuration that `init` writes.  It sets what holds anyway and shows the other options in
comments.
-/

namespace SdkLint.CommandLine

/-- The lines of the first configuration. -/
def initialConfigLines : List String :=
  ["# apilint configuration",
   "",
   "# Rule preset: \"recommended\" (default), \"strict\" or \"minimal\".",
   "# A rule with its own [rules.<name>] section runs even outside the preset.",
   "preset = \"recommended\"",
   "",
   "# Lowest severity that makes `apilint check` exit with status 1.",
   "# fail_on = \"error\"",
   "",
   "[analyzer]",
   "# Root directory to analyze (default: current directory)",
   "# root = \"./sdk\"",
   "",
   "# Glob patterns to exclude from analysis",
   "exclude = [",
   "    \"**/target/**\",",
   "    \"**/build/**\",",
   "    \"**/generated/**\",",
   "]",
   "",
   "# Respect .gitignore files",
   "respect_gitignore = true",
   "",
   "# Fail the run instead of skipping files that do not parse",
   "# fail_on_parse_error = false",
   "",
   "# Options shared by no-direct-throw, throw-from-logger,",
   "# logged-exception-thrown and use-caught-exception-cause.",
   "[rules.exception-discipline]",
   "allowed_direct_exceptions = [",
   "    \"IllegalArgumentException\",",
   "    \"NullPointerException\",",
   "    \"IllegalStateException\",",
   "    \"UnsupportedOperationException\",",
   "    \"IndexOutOfBoundsException\",",
   "]",
   "sanctioned_factories = [",
   "    \"logExceptionAsError\",",
   "    \"logExceptionAsWarning\",",
   "    \"logThrowableAsError\",",
   "    \"logThrowableAsWarning\",",
   "]",
   "generated_marker_suffixes = [\"Generated\", \"ServiceInterface\"]",
   "",
   "# [rules.service-client-shape]",
   "# marker = \"ServiceClient\"",
   "# operation_marker = \"ServiceMethod\"",
   "# sync_suffix = \"Client\"",
   "# async_suffix = \"AsyncClient\"",
   "#",
   "# [rules.service-client-shape.return_types]",
   "# async_single = \"Mono\"",
   "# sync_single = \"Response\"",
   "# async_collection = \"PagedFlux\"",
   "# sync_collection = \"PagedIterable\"",
   "# async_long_running = \"PollerFlux\"",
   "# sync_long_running = \"SyncPoller\"",
   "",
   "# [rules.immutable-class-fields]",
   "# marker = \"Immutable\"",
   "",
   "# [rules.javadoc-formatting]",
   "# severity = \"error\"",
   "",
   "# Uncommenting this section turns the rule on.",
   "# [rules.blacklisted-api]",
   "# banned_names = [\"java.util.Date\", \"java.util.Calendar\"]",
   "# message = \"'\x7bname\x7d' is a blacklisted API and must not be used\"",
   "",
   "# [rules.logging-hygiene]",
   "# logger_type = \"ClientLogger\"",
   "# banned_logging_packages = " ++
     "[\"org.slf4j\", \"org.apache.logging.log4j\", \"java.util.logging\"]",
   "",
   "# Known type hierarchy, used to accept subclasses of allowed exceptions.",
   "# [[types]]",
   "# name = \"com.example.InvalidWidgetException\"",
   "# superclass = \"java.lang.IllegalArgumentException\""]

/-- The first configuration. -/
def initialConfig : String :=
  String.join (initialConfigLines.map fun line => line ++ "\n")

end SdkLint.CommandLine
