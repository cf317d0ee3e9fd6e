import PluginAudit.Text.Blank

/-!
The functions that the runtime provides before any plugin code is loaded, by extension.
-/

namespace PluginAudit.Inventory

open Text (wordsOf)

def coreFunctions : List String :=
  wordsOf ["strlen strcmp strncmp strcasecmp strncasecmp func_num_args func_get_arg func_get_args",
   "function_exists class_exists interface_exists trait_exists enum_exists method_exists",
   "property_exists get_class get_parent_class get_called_class get_object_vars get_class_vars",
   "get_class_methods is_subclass_of is_a define defined constant error_reporting ini_get ini_set",
   "ini_get_all ini_restore set_error_handler restore_error_handler set_exception_handler",
   "restore_exception_handler trigger_error user_error error_log error_get_last error_clear_last",
   "debug_backtrace debug_print_backtrace debug_zval_refcount get_declared_classes",
   "get_declared_interfaces get_declared_traits get_defined_functions get_defined_vars",
   "get_defined_constants get_loaded_extensions extension_loaded get_extension_funcs",
   "gc_collect_cycles gc_enable gc_disable gc_enabled zend_version class_alias",
   "spl_autoload_register spl_autoload_unregister spl_autoload_functions spl_autoload_call",
   "spl_object_hash spl_object_id iterator_to_array iterator_count iterator_apply class_implements",
   "class_parents class_uses"]

def variablesFunctions : List String :=
  wordsOf
    ["var_dump var_export print_r serialize unserialize debug_zval_dump gettype get_debug_type",
   "settype intval floatval doubleval boolval strval is_null is_bool is_int is_integer is_long",
   "is_float is_double is_numeric is_string is_array is_object is_resource is_scalar is_callable",
   "is_iterable is_countable get_resource_type get_resource_id"]

def stringsFunctions : List String :=
  wordsOf ["addslashes addcslashes stripslashes stripcslashes bin2hex hex2bin chop chr ord",
   "chunk_split convert_uuencode convert_uudecode count_chars crc32 crypt explode implode join",
   "html_entity_decode htmlentities htmlspecialchars htmlspecialchars_decode",
   "get_html_translation_table lcfirst ucfirst ucwords levenshtein similar_text soundex metaphone",
   "ltrim rtrim trim md5 md5_file sha1 sha1_file nl2br number_format parse_str quotemeta setlocale",
   "localeconv sprintf printf vsprintf vprintf fprintf vfprintf sscanf str_contains",
   "str_starts_with str_ends_with str_getcsv str_ireplace str_replace str_pad str_repeat str_rot13",
   "str_shuffle str_split str_word_count strcoll strcspn strip_tags stripos stristr strnatcasecmp",
   "strnatcmp strpbrk strpos strrchr strrev strripos strrpos strspn strstr strtok strtolower",
   "strtoupper strtr substr substr_compare substr_count substr_replace wordwrap nl_langinfo",
   "utf8_encode utf8_decode quoted_printable_encode quoted_printable_decode uniqid lcg_value"]

def multibyteFunctions : List String :=
  wordsOf ["mb_strlen mb_substr mb_strpos mb_strrpos mb_stripos mb_strripos mb_strtolower",
   "mb_strtoupper mb_convert_case mb_convert_encoding mb_detect_encoding mb_check_encoding",
   "mb_internal_encoding mb_substr_count mb_str_split mb_strwidth mb_strimwidth mb_str_pad",
   "mb_strstr mb_stristr mb_strrchr mb_encode_mimeheader mb_decode_mimeheader mb_list_encodings",
   "mb_language mb_ord mb_chr mb_scrub mb_trim mb_ltrim mb_rtrim mb_ucfirst mb_lcfirst iconv",
   "iconv_strlen iconv_substr iconv_strpos"]

def regexFunctions : List String :=
  wordsOf
    ["preg_match preg_match_all preg_replace preg_replace_callback preg_replace_callback_array",
   "preg_split preg_quote preg_grep preg_last_error preg_last_error_msg"]

def arraysFunctions : List String :=
  wordsOf ["array_change_key_case array_chunk array_column array_combine array_count_values",
   "array_diff array_diff_assoc array_diff_key array_diff_uassoc array_diff_ukey array_fill",
   "array_fill_keys array_filter array_flip array_intersect array_intersect_assoc",
   "array_intersect_key array_intersect_uassoc array_intersect_ukey array_is_list array_key_exists",
   "key_exists array_key_first array_key_last array_keys array_map array_merge",
   "array_merge_recursive array_multisort array_pad array_pop array_product array_push array_rand",
   "array_reduce array_replace array_replace_recursive array_reverse array_search array_shift",
   "array_slice array_splice array_sum array_udiff array_udiff_assoc array_udiff_uassoc",
   "array_uintersect array_uintersect_assoc array_uintersect_uassoc array_unique array_unshift",
   "array_values array_walk array_walk_recursive array_find array_find_key array_any array_all",
   "arsort asort compact count sizeof current pos end extract in_array key krsort ksort",
   "natcasesort natsort next prev range reset rsort shuffle sort uasort uksort usort"]

def mathFunctions : List String :=
  wordsOf ["abs acos acosh asin asinh atan atan2 atanh base_convert bindec ceil cos cosh decbin",
   "dechex decoct deg2rad exp expm1 floor fmod fdiv hexdec hypot intdiv is_finite is_infinite",
   "is_nan log log10 log1p log2 max min mt_getrandmax mt_rand mt_srand octdec pi pow rad2deg rand",
   "srand getrandmax random_bytes random_int round sin sinh sqrt tan tanh bcadd bcsub bcmul bcdiv",
   "bcmod bcpow bcsqrt bcscale bccomp"]

def dateAndTimeFunctions : List String :=
  wordsOf ["checkdate date date_create date_create_immutable date_default_timezone_get",
   "date_default_timezone_set date_diff date_add date_sub date_format date_parse",
   "date_parse_from_format getdate gettimeofday gmdate gmmktime gmstrftime hrtime idate localtime",
   "microtime mktime strftime strtotime time timezone_identifiers_list timezone_open usleep sleep",
   "time_nanosleep set_time_limit"]

def filesFunctions : List String :=
  wordsOf
    ["basename chgrp chmod chown clearstatcache copy dirname disk_free_space disk_total_space",
   "fclose feof fflush fgetc fgetcsv fgets file file_exists file_get_contents file_put_contents",
   "fileatime filectime filemtime fileperms filesize filetype flock fnmatch fopen fpassthru",
   "fputcsv fputs fread fscanf fseek fstat ftell ftruncate fwrite glob is_dir is_executable",
   "is_file is_link is_readable is_uploaded_file is_writable is_writeable link lstat mkdir",
   "move_uploaded_file parse_ini_file parse_ini_string pathinfo pclose popen readfile readlink",
   "realpath rename rewind rmdir stat symlink tempnam tmpfile touch umask unlink opendir readdir",
   "closedir rewinddir scandir dir chdir getcwd stream_context_create stream_get_contents",
   "stream_get_meta_data stream_set_timeout stream_socket_client stream_wrapper_register",
   "stream_is_local fsockopen"]

def outputFunctions : List String :=
  wordsOf ["ob_start ob_get_clean ob_get_contents ob_end_clean ob_end_flush ob_flush ob_get_flush",
   "ob_get_level ob_get_length ob_get_status ob_implicit_flush ob_list_handlers flush header",
   "headers_sent headers_list header_remove http_response_code setcookie setrawcookie"]

def urlAndNetworkFunctions : List String :=
  wordsOf ["base64_encode base64_decode get_headers get_meta_tags http_build_query parse_url",
   "rawurlencode rawurldecode urlencode urldecode gethostbyname gethostname ip2long long2ip",
   "inet_pton inet_ntop checkdnsrr dns_get_record mail"]

def jsonAndEncodingFunctions : List String :=
  ["json_encode", "json_decode", "json_last_error", "json_last_error_msg", "json_validate"]

def filterAndCtypeFunctions : List String :=
  wordsOf ["filter_var filter_input filter_has_var filter_input_array filter_var_array filter_list",
   "filter_id ctype_alnum ctype_alpha ctype_digit ctype_lower ctype_upper ctype_space ctype_punct",
   "ctype_xdigit"]

def hashingAndCryptoFunctions : List String :=
  wordsOf ["hash hash_algos hash_equals hash_file hash_hmac hash_init hash_update hash_final",
   "hash_pbkdf2 password_hash password_verify password_needs_rehash password_get_info",
   "openssl_encrypt openssl_decrypt openssl_random_pseudo_bytes openssl_sign openssl_verify",
   "openssl_digest openssl_cipher_iv_length openssl_pkey_get_public openssl_pkey_get_private",
   "sodium_crypto_secretbox sodium_crypto_secretbox_open sodium_bin2hex sodium_hex2bin",
   "sodium_memzero"]

def functionsAndExecutionFunctions : List String :=
  wordsOf ["call_user_func call_user_func_array forward_static_call forward_static_call_array",
   "register_shutdown_function register_tick_function escapeshellarg escapeshellcmd exec passthru",
   "shell_exec system proc_open proc_close getenv putenv getmypid getmyuid php_sapi_name php_uname",
   "phpversion phpinfo php_ini_loaded_file memory_get_usage memory_get_peak_usage sys_get_temp_dir",
   "version_compare get_cfg_var ignore_user_abort connection_status connection_aborted",
   "highlight_string highlight_file php_strip_whitespace assert assert_options"]

def sessionsFunctions : List String :=
  wordsOf ["session_start session_destroy session_id session_name session_regenerate_id",
   "session_status session_write_close session_unset session_get_cookie_params",
   "session_set_cookie_params"]

def curlFunctions : List String :=
  wordsOf ["curl_init curl_setopt curl_setopt_array curl_exec curl_close curl_error curl_errno",
   "curl_getinfo curl_multi_init curl_multi_exec curl_multi_add_handle curl_multi_remove_handle",
   "curl_multi_close"]

def gdAndImagesFunctions : List String :=
  wordsOf ["getimagesize getimagesizefromstring image_type_to_mime_type imagecreatetruecolor",
   "imagecreatefromjpeg imagecreatefrompng imagecreatefromgif imagecreatefromstring",
   "imagecopyresampled imagejpeg imagepng imagegif imagewebp imagedestroy imagesx imagesy",
   "imagecolorallocate imagefill exif_read_data exif_imagetype"]

def xmlAndLibxmlFunctions : List String :=
  wordsOf ["simplexml_load_string simplexml_load_file simplexml_import_dom",
   "libxml_use_internal_errors libxml_get_errors libxml_clear_errors xml_parser_create xml_parse",
   "xml_parser_free xml_set_element_handler xml_set_character_data_handler"]

def mysqlAndDatabaseFunctions : List String :=
  wordsOf ["mysqli_connect mysqli_query mysqli_fetch_assoc mysqli_fetch_array mysqli_fetch_row",
   "mysqli_num_rows mysqli_real_escape_string mysqli_close mysqli_error mysqli_insert_id",
   "mysqli_set_charset mysqli_prepare mysqli_stmt_execute mysqli_affected_rows"]

def miscFunctions : List String :=
  wordsOf ["gzcompress gzuncompress gzencode gzdecode gzdeflate gzinflate zlib_encode zlib_decode",
   "mime_content_type finfo_open finfo_file finfo_close finfo_buffer spl_autoload apcu_fetch",
   "apcu_store apcu_delete opcache_get_status opcache_invalidate opcache_reset"]

/-- Every function of the runtime, each one once. -/
def runtimeFunctions : List String :=
  List.flatten
    [coreFunctions, variablesFunctions, stringsFunctions, multibyteFunctions, regexFunctions,
     arraysFunctions, mathFunctions, dateAndTimeFunctions, filesFunctions, outputFunctions,
     urlAndNetworkFunctions, jsonAndEncodingFunctions, filterAndCtypeFunctions,
     hashingAndCryptoFunctions, functionsAndExecutionFunctions, sessionsFunctions, curlFunctions,
     gdAndImagesFunctions, xmlAndLibxmlFunctions, mysqlAndDatabaseFunctions, miscFunctions]

end PluginAudit.Inventory
